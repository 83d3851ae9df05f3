import BenchLog.Proofs.Decimal.Arithmetic

/-! Quotients of floating-point values by natural numbers.
A number below two to the fifty-third is converted exactly, and the quotient by it is rounded once,
so that it vanishes exactly if it is no more than half of the least unit.
-/

open Float.Model Float.Model.UnpackedFloat

namespace BenchLog.Decimal

variable {x y : Float}

/-- Natural numbers below two to the fifty-third are not rounded. -/
theorem RoundsTo.eq_natCast {n : Nat} (hn : n < 2 * normalBound) (h : RoundsTo .positive n y)
    : y.isFinite = true ∧ value y = n := by
  have hnq : (n : ℚ) < 2 * normalBound := by exact_mod_cast hn
  have hb : (0 : ℚ) < normalBound := by norm_num [normalBound]
  obtain ⟨r, t, hr, hcases⟩ := h.cases
  have ht : t ≤ 0 := by
    by_contra hpos
    have htwo : (2 : ℚ) ^ (1 : Int) ≤ 2 ^ t := zpow_le_zpow_right₀ (by norm_num) (by omega)
    rw [zpow_one] at htwo
    have hleast : minExponent < t := lt_of_le_of_lt (by decide) (not_le.mp hpos)
    have hnormal := (mul_le_mul_of_nonneg_left htwo hb.le).trans (hr.normal hleast)
    linarith
  have hmultiple : (n : ℚ) = ((n * 2 ^ (-t).toNat : Int) : ℚ) * 2 ^ t := by
    obtain ⟨k, rfl⟩ : ∃ k : Nat, t = -k := ⟨(-t).toNat, by omega⟩
    have hk : (- -(k : Int)).toNat = k := by omega
    rw [hk, zpow_neg, zpow_natCast]
    push_cast
    field_simp
  have hexact := hr.eq_of_multiple hmultiple
  rcases hcases with ⟨hy, hvalue⟩ | ⟨hover, -⟩
  · exact ⟨hy, by rw [hvalue, Sign.apply, Int.cast_natCast, hexact]⟩
  · have hone : 1 ≤ greatestUnit := one_le_zpow₀ (by norm_num) (by norm_num)
    have hle := mul_le_mul_of_nonneg_left hone (by linarith : (0 : ℚ) ≤ 2 * normalBound)
    rw [hexact, overflowBound] at hover
    linarith

theorem roundsTo_toFloat {n : Nat} (hpos : 0 < n) (hn : n < 2 * normalBound)
    : RoundsTo .positive n n.toUInt64.toFloat := by
  have hword : n.toUInt64.toNat = n := by
    rw [Nat.toUInt64_eq, UInt64.toNat_ofNat']
    exact Nat.mod_eq_of_lt (lt_trans hn (by decide))
  have hmodel
      : n.toUInt64.toFloat.toModel =
          Float.Model.pack (UnpackedFloat.normalize Format.binary64 n 0 .positive) := by
    change Float.Model.pack
      (UnpackedFloat.normalize Format.binary64 n.toUInt64.toNat 0 .positive) = _
    rw [hword]
  have hrounds := (roundsTo_of_normalize hmodel).1 (by omega)
  rwa [zpow_zero, mul_one, Int.cast_natCast] at hrounds

/-- A product with one, whose significand is long enough for any product. -/
theorem roundsTo_mul_one (hx : x.isFinite = true) (hpos : 0 < x)
    : RoundsTo .positive (value x) (x * Float.ofBits 0x3FF0000000000000) := by
  obtain ⟨m, e, hm, hunpack, hme⟩ := exists_parts hx hpos
  have hone
      : (Float.ofBits 0x3FF0000000000000).toModel.unpack =
          .finite .positive normalBound (-52) (by decide) := by
    rfl
  have hlog : 52 ≤ (m * normalBound).log2 := by
    rw [Nat.le_log2 (Nat.mul_pos hm.positive (by decide)).ne']
    exact Nat.le_mul_of_pos_left _ hm.positive
  have hscale : ((m * normalBound : Nat) : ℚ) * 2 ^ (e + -52) = value x := by
    rw [hme, zpow_add₀ (by norm_num)]
    norm_num [normalBound]
    ring
  obtain ⟨r, t, hr, hround⟩ :=
    exists_rounded (represents_exact (m * normalBound)) (Or.inl hlog) .positive
  refine ⟨r, t, hscale ▸ hr, ?_⟩
  rw [← hround]
  change Float.Model.pack (UnpackedFloat.mul Format.binary64 _ _) = _
  rw [hunpack, hone]
  rfl

/-- Small natural numbers are converted exactly. -/
theorem exists_parts_ofNat {n : Nat} (hpos : 0 < n) (hn : n < 2 * normalBound)
    : ∃ m e,
        ∃ h : IsFinite m e,
          (Float.ofNat n).toModel.unpack = .finite .positive m e h.positive
          ∧ (m : ℚ) * 2 ^ e = n := by
  have hnpos : (0 : ℚ) < n := by exact_mod_cast hpos
  have hproduct : Float.ofNat n = n.toUInt64.toFloat * Float.ofBits 0x3FF0000000000000 := by
    unfold Float.ofNat
    change Float.ofScientific n false 0 = _
    rw [Float.ofScientific, dif_pos ⟨hn, by decide⟩]
    rfl
  obtain ⟨hword, hwordValue⟩ := (roundsTo_toFloat hpos hn).eq_natCast hn
  have hmul : RoundsTo .positive n (Float.ofNat n) := by
    rw [hproduct, ← hwordValue]
    exact roundsTo_mul_one hword ((zero_lt_iff_of_isFinite hword).mpr (hwordValue ▸ hnpos))
  obtain ⟨hfinite, hvalue⟩ := hmul.eq_natCast hn
  obtain ⟨m, e, hm, hunpack, hme⟩ :=
    exists_parts hfinite ((zero_lt_iff_of_isFinite hfinite).mpr (hvalue ▸ hnpos))
  exact ⟨m, e, hm, hunpack, hme.symm.trans hvalue⟩

theorem le_log2_shiftLeft_div {b k m n : Nat} (hm : 0 < m) (hn : 0 < n)
    (h : n.log2 + 1 + b ≤ m.log2 + k)
    : b ≤ ((m <<< k) / n).log2 := by
  have hlow : 2 ^ (m.log2 + k) ≤ m <<< k := by
    rw [← log2_shiftLeft hm]
    exact Nat.log2_self_le (Nat.shiftLeft_pos_iff.mpr hm).ne'
  have hquotient : 2 ^ b ≤ (m <<< k) / n := by
    apply (Nat.le_div_iff_mul_le hn).mpr
    calc
      2 ^ b * n ≤ 2 ^ b * 2 ^ (n.log2 + 1) := Nat.mul_le_mul_left _ Nat.lt_log2_self.le
      _ = 2 ^ (n.log2 + 1 + b) := by ring
      _ ≤ 2 ^ (m.log2 + k) := Nat.pow_le_pow_right (by decide) h
      _ ≤ m <<< k := hlow
  exact (Nat.le_log2 (lt_of_lt_of_le (Nat.two_pow_pos b) hquotient).ne').mpr hquotient

/-- The quotient has enough bits before it is rounded. -/
theorem exists_rounded_div {m n : Nat} (hm : 0 < m) (hn : 0 < n) (e f : Int) (s : Sign)
    : ∃ r t,
        Rounded (m * 2 ^ e / (n * 2 ^ f)) r t
        ∧ roundWithAccuracy Format.binary64 s (divCore Format.binary64 m e n f).1
              (divCore Format.binary64 m e n f).2.1 (divCore Format.binary64 m e n f).2.2 =
            ofSignificand s r t := by
  obtain ⟨g, hg⟩
      : ∃ g,
          g = min (e - f)
            (Format.binary64.targetExponent (totalExponent m e - totalExponent n f)) :=
    ⟨_, rfl⟩
  obtain ⟨k, hk⟩ : ∃ k : Nat, k = (e - f - g).toNat := ⟨_, rfl⟩
  have hcore
      : divCore Format.binary64 m e n f =
          ((m <<< k) / n, g, accuracyOfFraction ((m <<< k) % n) n) := by
    rw [hk, hg]
    rfl
  have htarget
      : Format.binary64.targetExponent (totalExponent m e - totalExponent n f) =
          max (m.log2 + e - n.log2 - f - 53) minExponent := by
    simp only [Format.targetExponent, totalExponent, Format.mantissaBits, Format.minExponent,
      minExponent]
    omega
  rw [htarget] at hg
  have hbits : 52 ≤ ((m <<< k) / n).log2 ∨ g ≤ minExponent := by
    by_cases hle : g ≤ minExponent
    · exact Or.inr hle
    · exact Or.inl (le_log2_shiftLeft_div hm hn (by omega))
  obtain ⟨r, t, hr, hround⟩ := exists_rounded (represents_quotient hn (m <<< k)) hbits s
  refine ⟨r, t, ?_, ?_⟩
  · have hge : g = e - f - k := by omega
    have hvalue : ((m <<< k : Nat) : ℚ) / n * 2 ^ g = m * 2 ^ e / (n * 2 ^ f) := by
      have hshift := shiftLeft_value m k (e - f)
      rw [hge, div_mul_eq_mul_div, hshift, zpow_sub₀ (by norm_num)]
      field_simp
    rwa [hvalue] at hr
  · rw [hcore]
    exact hround

/-- A quotient by a natural number is the exact one rounded once. -/
theorem roundsTo_div_ofNat {n k : Nat} {f : Int} {s : Sign} {hk : 0 < k} (hpos : 0 < n)
    (hn : n < 2 * normalBound) (hx : x.toModel.unpack = .finite s k f hk)
    : RoundsTo s (k * 2 ^ f / n) (x / Float.ofNat n) := by
  obtain ⟨m, e, hm, hunpack, hme⟩ := exists_parts_ofNat hpos hn
  obtain ⟨r, t, hr, hround⟩ := exists_rounded_div hk hm.positive f e s
  refine ⟨r, t, hme ▸ hr, ?_⟩
  change Float.Model.pack
    (UnpackedFloat.div Format.binary64 x.toModel.unpack (Float.ofNat n).toModel.unpack) = _
  rw [hx, hunpack, ← hround]
  cases s <;> rfl

/-- A quotient by a natural number is positive exactly if it is more than half the least unit. -/
theorem zero_lt_div_ofNat_iff {n : Nat} (hpos : 0 < n) (hn : n < 2 * normalBound)
    (hx : x.toModel.unpack ≠ .infinity .positive)
    : 0 < x / Float.ofNat n ↔ n * (2 ^ minExponent / 2) < value x := by
  have hnpos : (0 : ℚ) < n := by exact_mod_cast hpos
  obtain ⟨m, e, hm, hunpack, hme⟩ := exists_parts_ofNat hpos hn
  have hdiv
      : (x / Float.ofNat n).toModel =
          Float.Model.pack (UnpackedFloat.div Format.binary64 x.toModel.unpack
            (.finite .positive m e hm.positive)) := by
    rw [← hunpack]
    rfl
  have hbound : 0 ≤ (n : ℚ) * (2 ^ minExponent / 2) :=
    mul_nonneg hnpos.le (by linarith [two_zpow_pos minExponent])
  have hnone
      : ∀ {u : UnpackedFloat}, (x / Float.ofNat n).toModel = Float.Model.pack u → Canonical u →
          u ≠ .infinity .positive → unpackedValue u = 0 → ¬ 0 < x / Float.ofNat n := by
    intro u hy hcanonical hu hzero
    rw [zero_lt_iff, value, hy, unpack_pack hcanonical, hzero]
    simp [hu]
  rw [value]
  cases hu : x.toModel.unpack with
  | notANumber =>
      rw [hu, UnpackedFloat.div] at hdiv
      exact iff_of_false (hnone hdiv trivial (by simp) rfl) hbound.not_gt
  | zero s =>
      rw [hu, UnpackedFloat.div] at hdiv
      exact iff_of_false (hnone hdiv trivial (by simp) rfl) hbound.not_gt
  | infinity s =>
      rw [hu, UnpackedFloat.div] at hdiv
      rw [hu] at hx
      cases s with
      | positive => exact absurd rfl hx
      | negative =>
          have hsign : Sign.negative / Sign.positive = Sign.negative := rfl
          rw [hsign] at hdiv
          exact iff_of_false (hnone hdiv trivial (by simp) rfl) hbound.not_gt
  | finite s k f hk =>
      have hrounds := roundsTo_div_ofNat hpos hn hu
      cases s with
      | negative =>
          refine iff_of_false hrounds.not_zero_lt (not_lt.mpr (le_trans ?_ hbound))
          simp only [unpackedValue, Sign.apply, Int.cast_neg, Int.cast_natCast, neg_mul]
          exact neg_nonpos.mpr (mul_nonneg (Nat.cast_nonneg k) (two_zpow_pos f).le)
      | positive =>
          rw [hrounds.zero_lt_iff, lt_div_iff₀ hnpos, mul_comm]
          simp [unpackedValue, Sign.apply]

-----------------------------------------------------------------------------------------
-- Quotients by one
-----------------------------------------------------------------------------------------

/-- Rounding leaves the significand of a finite value as it is, since no other exponent is that of
its binade. -/
theorem Rounded.ofSignificand_eq {m r : Nat} {e t : Int} (hm : IsFinite m e)
    (h : Rounded (m * 2 ^ e) r t) (s : Sign)
    : ofSignificand s r t = .finite s m e hm.positive := by
  have hbounded : (m : ℚ) < 2 * normalBound := by exact_mod_cast hm.bounded
  have hb : (0 : ℚ) ≤ normalBound := Nat.cast_nonneg _
  have hexponent : t = e := by
    rcases lt_trichotomy t e with hlt | heq | hgt
    · have hnormal : (normalBound : ℚ) ≤ m := by
        exact_mod_cast hm.normal (lt_of_le_of_lt h.least hlt)
      have hpow : (2 : ℚ) ^ (t + 1) ≤ 2 ^ e := zpow_le_zpow_right₀ (by norm_num) hlt
      rw [zpow_add_one₀ (by norm_num)] at hpow
      have hle := mul_le_mul hnormal hpow (by linarith [two_zpow_pos t]) (Nat.cast_nonneg m)
      linarith [h.bounded]
    · exact heq
    · have hnormal := h.normal (lt_of_le_of_lt hm.least hgt)
      have hpow : (2 : ℚ) ^ (e + 1) ≤ 2 ^ t := zpow_le_zpow_right₀ (by norm_num) hgt
      rw [zpow_add_one₀ (by norm_num)] at hpow
      have hle := mul_le_mul_of_nonneg_left hpow hb
      have hlt := mul_lt_mul_of_pos_right hbounded (two_zpow_pos e)
      linarith
  subst hexponent
  obtain rfl : r = m := by
    have hexact := h.eq_of_multiple (by rw [Int.cast_natCast])
    exact_mod_cast mul_right_cancel₀ (two_zpow_pos t).ne' hexact
  rw [ofSignificand, dif_neg hm.positive.ne', if_pos hm.bounded]

/-- A value is determined by its parts. -/
theorem eq_of_unpack_eq (h : x.toModel.unpack = y.toModel.unpack)
    : x = y := by
  have hbits := (UnpackedFloat.unpack_inj_of_valid x.toModel.valid y.toModel.valid).mp h
  exact Float.toBits_inj.mp (UInt64.toBitVec_inj.mp hbits)

/-- The quotient of any value by one is the value, by the cases of its kind. -/
theorem div_ofNat_one (x : Float)
    : x / Float.ofNat 1 = x := by
  have hone
      : (Float.ofNat 1).toModel.unpack = .finite .positive normalBound (-52) (by decide) := by
    rfl
  have hdiv
      : (x / Float.ofNat 1).toModel =
          Float.Model.pack (UnpackedFloat.div Format.binary64 x.toModel.unpack
            (.finite .positive normalBound (-52) (by decide))) := by
    rw [← hone]
    rfl
  have hcanonical := canonical_unpack x.toModel
  apply eq_of_unpack_eq
  rw [hdiv]
  cases hu : x.toModel.unpack with
  | notANumber => exact unpack_pack trivial
  | infinity s => cases s <;> exact unpack_pack trivial
  | zero s => cases s <;> exact unpack_pack trivial
  | finite s m e hm =>
      rw [hu] at hcanonical
      have hfinite : IsFinite m e := hcanonical
      obtain ⟨r, t, hr, hround⟩ :=
        exists_rounded_div hm (by decide : 0 < normalBound) e (-52) s
      have hunit : (normalBound : ℚ) * 2 ^ (-52 : Int) = 1 := by norm_num [normalBound]
      rw [hunit, div_one] at hr
      have hparts
          : UnpackedFloat.div Format.binary64 (.finite s m e hm)
                (.finite .positive normalBound (-52) (by decide)) =
              ofSignificand s r t := by
        rw [← hround]
        cases s <;> rfl
      rw [hparts, hr.ofSignificand_eq hfinite]
      exact unpack_pack hcanonical

end BenchLog.Decimal
