import Mathlib
import BenchLog.Decimal.Binary

/-! The words that stand for floating-point values.
A value is determined by its sign and its code, and only the two zeros are equal without being the
same.
-/

open Float.Model Float.Model.UnpackedFloat

namespace BenchLog.Decimal

theorem toNat_unpackMantissa (b : BitVec 64)
    : (@unpackMantissa Format.binary64 b).toNat = b.toNat % normalBound := by
  simp [unpackMantissa, normalBound]

theorem toNat_unpackExponent (b : BitVec 64)
    : (@unpackExponent Format.binary64 b).toNat = b.toNat / normalBound % 2048 := by
  simp [unpackExponent, Nat.shiftRight_eq_div_pow, normalBound]

/-- A value has the sign and the code that its bits hold. -/
theorem floatOfCode_toBits (x : Float)
    : floatOfCode (decide (signBit ≤ x.toBits.toNat)) (x.toBits.toNat % signBit) = x := by
  have hlt := x.toBits.toNat_lt
  have hb
      : (if decide (signBit ≤ x.toBits.toNat) then signBit + x.toBits.toNat % signBit
          else x.toBits.toNat % signBit) = x.toBits.toNat := by
    by_cases hs : signBit ≤ x.toBits.toNat
    · rw [decide_eq_true hs, if_pos rfl]
      simp only [signBit] at hs ⊢
      omega
    · rw [decide_eq_false hs, if_neg Bool.false_ne_true]
      exact Nat.mod_eq_of_lt (Nat.lt_of_not_le hs)
  rw [floatOfCode, hb, UInt64.ofNat_toNat, Float.ofBits_toBits]

/-- Equal values are the same, or both are zero. -/
theorem eq_of_beq {x y : Float} (h : (x == y) = true)
    : x = y ∨ ∃ s t, x = floatOfCode s 0 ∧ y = floatOfCode t 0 := by
  have hpositive : (0 : Float) = floatOfCode false 0 := by decide
  have hnegative : (-0 : Float) = floatOfCode true 0 := by decide
  obtain ⟨-, -, hsame | ⟨hx, hy⟩ | ⟨hx, hy⟩⟩ := Float.beq_iff_ne_nan_and_eq.mp h
  · exact Or.inl hsame
  · exact Or.inr ⟨false, true, hx.trans hpositive, hy.trans hnegative⟩
  · exact Or.inr ⟨true, false, hx.trans hnegative, hy.trans hpositive⟩

end BenchLog.Decimal
