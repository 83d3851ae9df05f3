import BenchLog.Proofs.Decimal.Order

/-! Packing the parts of a floating-point value into its bits.
Canonical parts come back from their bits, and parts beyond the greatest exponent are packed as an
infinity.
-/

open Float.Model Float.Model.UnpackedFloat

namespace BenchLog.Decimal

theorem ofBitVec_unpackSign (s : Sign) (e : BitVec 11) (m : BitVec 52)
    : Sign.ofBitVec (@unpackSign Format.binary64 (packComponents Format.binary64 s e m)) = s := by
  rw [unpackSign_packComponents, Sign.ofBitVec_toBitVec]

/-- A normal significand comes back from its fraction. -/
theorem unpack_packComponents_normal (s : Sign) {m : Nat} {field : Nat}
    (low : normalBound ≤ m) (high : m < 2 * normalBound) (positive : 0 < field)
    (bounded : field < 2047)
    : UnpackedFloat.unpack Format.binary64
          (packComponents Format.binary64 s (BitVec.ofNat 11 field) (BitVec.ofNat 52 m)) =
        .finite s m (field - 1075) (lt_of_lt_of_le (by decide) low) := by
  have hfield : (BitVec.ofNat 11 field).toNat = field := by
    rw [BitVec.toNat_ofNat, Nat.mod_eq_of_lt (by omega)]
  have hinfinite : BitVec.ofNat 11 field ≠ -1#11 := by
    intro h
    have hn := congrArg BitVec.toNat h
    rw [hfield] at hn
    exact absurd hn (by simp; omega)
  have hzero : BitVec.ofNat 11 field ≠ 0#11 := by
    intro h
    have hn := congrArg BitVec.toNat h
    rw [hfield] at hn
    exact absurd hn (by simp; omega)
  have hfraction : (1#1 ++ BitVec.ofNat 52 m).toNat = m := by
    rw [BitVec.toNat_append, ← Nat.shiftLeft_add_eq_or_of_lt (BitVec.isLt _), BitVec.toNat_ofNat]
    simp only [normalBound] at low high
    simp
    omega
  unfold UnpackedFloat.unpack
  simp only [unpackExponent_packComponents, unpackMantissa_packComponents, ofBitVec_unpackSign,
    hinfinite, hzero, hfraction, hfield, ↓reduceIte]
  rfl

/-- A significand below the normal ones is its own fraction. -/
theorem unpack_packComponents_subnormal (s : Sign) {m : Nat} (positive : 0 < m)
    (high : m < normalBound)
    : UnpackedFloat.unpack Format.binary64
          (packComponents Format.binary64 s 0#11 (BitVec.ofNat 52 m)) =
        .finite s m minExponent positive := by
  have hm : (BitVec.ofNat 52 m).toNat = m := by
    rw [BitVec.toNat_ofNat]
    exact Nat.mod_eq_of_lt high
  have hne : BitVec.ofNat 52 m ≠ 0#52 := by
    intro h
    have hn := congrArg BitVec.toNat h
    rw [hm] at hn
    exact positive.ne' hn
  have hinfinite : 0#11 ≠ -1#11 := by decide
  unfold UnpackedFloat.unpack
  simp only [unpackExponent_packComponents, unpackMantissa_packComponents, ofBitVec_unpackSign,
    hinfinite, hne, hm, ↓reduceIte, ↓reduceDIte]
  rfl

/-- The bits of finite parts by the size of their exponent and their significand. -/
theorem pack_finite (s : Sign) {m : Nat} {e : Int} (positive : 0 < m) (least : minExponent ≤ e)
    : UnpackedFloat.pack Format.binary64 (.finite s m e positive) =
        if 971 < e then packedInfinity Format.binary64 s
        else if m.log2 = 52 then
          packComponents Format.binary64 s (BitVec.ofNat 11 (e + 1075).toNat) (BitVec.ofNat 52 m)
        else packComponents Format.binary64 s 0#11 (BitVec.ofNat 52 m) := by
  simp only [minExponent] at least
  have hfield : (e + ((1023 : Nat) : Int) + ((52 : Nat) : Int)).toNat = (e + 1075).toNat := by
    omega
  change (if 2 ^ 11 ≤ (e + ((1023 : Nat) : Int) + ((52 : Nat) : Int)).toNat + 1 then _ else
    if m.log2 + 1 = 53 then
      packComponents Format.binary64 s
        (BitVec.ofNat 11 (e + ((1023 : Nat) : Int) + ((52 : Nat) : Int)).toNat) _
    else _) = _
  rw [hfield]
  congr 1
  · exact propext (by omega)
  · congr 1
    exact propext (by omega)

/-- Canonical parts come back from their bits. -/
theorem unpack_pack {u : UnpackedFloat} (h : Canonical u)
    : (Float.Model.pack u).unpack = u := by
  unfold Float.Model.unpack Float.Model.pack
  cases u with
  | notANumber => exact unpack_packedNaN
  | zero s => exact unpack_packedZero
  | infinity s => simp [UnpackedFloat.pack, packedInfinity, UnpackedFloat.unpack]
  | finite s m e hm =>
      have hfinite : IsFinite m e := h
      have hleast := hfinite.least
      simp only [minExponent] at hleast
      have hgreatest := hfinite.greatest
      change UnpackedFloat.unpack _ (UnpackedFloat.pack _ _) = _
      rw [pack_finite s hm hfinite.least, if_neg hgreatest.not_gt]
      split
      · next hlog =>
          have hlow : normalBound ≤ m := (Nat.le_log2 hm.ne').mp hlog.ge
          rw [unpack_packComponents_normal s hlow hfinite.bounded (by omega) (by omega)]
          congr 1
          omega
      · next hlog =>
          have hhigh : m < normalBound := by
            have hlt : m.log2 < 53 := (Nat.log2_lt hm.ne').mpr hfinite.bounded
            have hlog : m.log2 < 52 := by omega
            exact (Nat.log2_lt hm.ne').mp hlog
          have he : e = minExponent := by
            by_contra hne
            have := hfinite.normal (lt_of_le_of_ne hfinite.least (Ne.symm hne))
            omega
          subst he
          exact unpack_packComponents_subnormal s hm hhigh

/-- Parts beyond the greatest exponent become an infinity. -/
theorem unpack_pack_of_lt (s : Sign) {m : Nat} {e : Int} (positive : 0 < m) (h : 971 < e)
    : (Float.Model.pack (.finite s m e positive)).unpack = .infinity s := by
  have hleast : minExponent ≤ e := by
    simp only [minExponent]
    omega
  have hinfinite : Canonical (.infinity s) := trivial
  rw [← unpack_pack hinfinite]
  unfold Float.Model.unpack Float.Model.pack
  change UnpackedFloat.unpack _ (UnpackedFloat.pack _ _) = _
  rw [pack_finite s positive hleast, if_pos h]
  rfl

end BenchLog.Decimal
