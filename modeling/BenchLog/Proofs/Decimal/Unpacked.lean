import BenchLog.Proofs.Decimal.Sign

/-! The two ways to take a floating-point value apart.
Texts are written from the fields of its bits and arithmetic is done on its unpacked parts; both
give the same sign, significand and exponent.
-/

open Float.Model Float.Model.UnpackedFloat

namespace BenchLog.Decimal

/-- What unpacked parts stand for. -/
def Number.ofUnpacked : UnpackedFloat → Number
  | .notANumber => .nan
  | .infinity s => .infinite (s == .negative)
  | .zero s => .finite (s == .negative) 0 minExponent
  | .finite s m e _ => .finite (s == .negative) m e

theorem toNat_unpackSign (b : BitVec 64)
    : (@unpackSign Format.binary64 b).toNat = b.toNat / signBit % 2 := by
  simp [unpackSign, Nat.shiftRight_eq_div_pow, signBit]

/-- The sign is negative if the highest bit is set. -/
theorem ofBitVec_unpackSign_beq_negative (b : BitVec 64)
    : (Sign.ofBitVec (@unpackSign Format.binary64 b) == .negative) =
        decide (signBit ≤ b.toNat) := by
  have hs := toNat_unpackSign b
  have hlt := b.isLt
  unfold Sign.ofBitVec
  split
  · next hzero =>
      rw [hzero] at hs
      have hlow : ¬ signBit ≤ b.toNat := by
        simp only [signBit] at hs ⊢
        simp at hs
        omega
      rw [decide_eq_false hlow]
      rfl
  · next hone =>
      have hhigh : signBit ≤ b.toNat := by
        by_contra hlow
        apply hone
        apply BitVec.eq_of_toNat_eq
        rw [hs, Nat.div_eq_of_lt (Nat.lt_of_not_le hlow)]
        rfl
      rw [decide_eq_true hhigh]
      rfl

theorem field_eq_toNat_unpackExponent (b : BitVec 64)
    : b.toNat % signBit / normalBound = (@unpackExponent Format.binary64 b).toNat := by
  rw [toNat_unpackExponent]
  simp only [signBit, normalBound]
  omega

theorem fraction_eq_toNat_unpackMantissa (b : BitVec 64)
    : b.toNat % signBit % normalBound = (@unpackMantissa Format.binary64 b).toNat := by
  rw [toNat_unpackMantissa]
  simp only [signBit, normalBound]
  omega

/-- A normal significand has one bit more than its fraction. -/
theorem toNat_one_append (m : BitVec 52)
    : (1#1 ++ m).toNat = normalBound + m.toNat := by
  rw [BitVec.toNat_append, ← Nat.shiftLeft_add_eq_or_of_lt (BitVec.isLt _)]
  rfl

/-- The fields of the bits are the unpacked parts, by the cases of the exponent field. -/
theorem ofFloat_eq_ofUnpacked (x : Float)
    : Number.ofFloat x = .ofUnpacked x.toModel.unpack := by
  obtain ⟨b, hb⟩ : ∃ b, b = x.toModel.toBits.toBitVec := ⟨_, rfl⟩
  have hbits : x.toBits.toNat = b.toNat := hb ▸ rfl
  unfold Number.ofFloat Number.ofCode Float.Model.unpack UnpackedFloat.unpack
  dsimp only
  rw [hbits, ← hb, field_eq_toNat_unpackExponent, fraction_eq_toNat_unpackMantissa,
    ← ofBitVec_unpackSign_beq_negative]
  have hinfinite
      : (@unpackExponent Format.binary64 b).toNat = 2047 ↔
          @unpackExponent Format.binary64 b = -1#11 :=
    BitVec.toNat_inj (y := -1#11)
  have hsubnormal
      : (@unpackExponent Format.binary64 b).toNat = 0 ↔
          @unpackExponent Format.binary64 b = 0#11 :=
    BitVec.toNat_inj (y := 0#11)
  have hzero
      : (@unpackMantissa Format.binary64 b).toNat = 0 ↔
          @unpackMantissa Format.binary64 b = 0#52 :=
    BitVec.toNat_inj (y := 0#52)
  simp only [hinfinite, hsubnormal]
  split
  · simp only [hzero]
    split <;> rfl
  · split
    · next hexponent =>
        split
        · next hmantissa =>
            rw [hmantissa]
            rfl
        · rw [hexponent]
          rfl
    · have hexponent
          : minExponent + ((@unpackExponent Format.binary64 b).toNat : Int) - 1 =
              (@unpackExponent Format.binary64 b).toNat - (1023 + 52) := by
        simp only [minExponent]
        omega
      simp only [Number.ofUnpacked]
      rw [toNat_one_append, hexponent]
      rfl

section

variable {x : Float}

theorem ofFloat_neg (x : Float)
    : Number.ofFloat (-x) = .ofUnpacked x.toModel.unpack.neg := by
  rw [ofFloat_eq_ofUnpacked, unpack_neg]

/-- A finite value that does not equal zero has a significand, by the cases of its parts. -/
theorem exists_unpack_eq (hx : x.isFinite = true) (hne : (x == 0) = false)
    : ∃ s m e, ∃ hm : 0 < m, x.toModel.unpack = .finite s m e hm := by
  have hfinite : x.toModel.unpack.isFinite = true := hx
  have hbeq : UnpackedFloat.beq x.toModel.unpack (0 : Float).toModel.unpack = false := hne
  rw [unpack_zero] at hbeq
  cases hu : x.toModel.unpack with
  | notANumber | infinity =>
      rw [hu] at hfinite
      cases hfinite
  | zero s =>
      rw [hu] at hbeq
      cases s <;> cases hbeq
  | finite s m e hm => exact ⟨s, m, e, hm, rfl⟩

/-- What is written of a finite value has its absolute value, by the cases of its parts. -/
theorem abs_value_of_ofFloat {negative : Bool} {m : Nat} {e : Int}
    (h : Number.ofFloat x = .finite negative m e)
    : |value x| = m * 2 ^ e := by
  rw [ofFloat_eq_ofUnpacked] at h
  rw [value]
  cases hu : x.toModel.unpack with
  | notANumber | infinity =>
      rw [hu] at h
      cases h
  | zero s =>
      rw [hu] at h
      cases h
      simp [unpackedValue]
  | finite s m e hm =>
      rw [hu] at h
      cases h
      cases s <;> simp [unpackedValue, Sign.apply, abs_of_pos (two_zpow_pos e)]

/-- What is written of a finite value other than zero has its sign and its absolute value. -/
theorem exists_ofFloat_eq (hx : x.isFinite = true) (hne : (x == 0) = false)
    : ∃ m e,
        0 < m
        ∧ Number.ofFloat x = .finite (decide (value x < 0)) m e
        ∧ |value x| = m * 2 ^ e := by
  obtain ⟨s, m, e, hm, hu⟩ := exists_unpack_eq hx hne
  have hpos : (0 : ℚ) < m * 2 ^ e := mul_pos (Nat.cast_pos.mpr hm) (two_zpow_pos e)
  have hnumber : Number.ofFloat x = .finite (decide (value x < 0)) m e := by
    rw [ofFloat_eq_ofUnpacked, value, hu]
    cases s with
    | positive =>
        have hv : unpackedValue (.finite .positive m e hm) = m * 2 ^ e := by
          simp [unpackedValue, Sign.apply]
        rw [hv, decide_eq_false hpos.not_gt]
        rfl
    | negative =>
        have hv : unpackedValue (.finite .negative m e hm) = -(m * 2 ^ e) := by
          simp [unpackedValue, Sign.apply]
        rw [hv, decide_eq_true (neg_neg_of_pos hpos)]
        rfl
  exact ⟨m, e, hm, hnumber, abs_value_of_ofFloat hnumber⟩

end

end BenchLog.Decimal
