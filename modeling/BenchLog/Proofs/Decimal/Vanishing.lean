import BenchLog.Proofs.Decimal.Quotient
import BenchLog.Proofs.Decimal.Sign

/-! Differences of a value and itself.
A finite value leaves zero, which stays zero through products and quotients. An infinity leaves what
is no number, which stays so and compares with nothing.
-/

open Float.Model Float.Model.UnpackedFloat

namespace BenchLog.Decimal

variable {x y : Float}

/-- Parts taken from themselves, by the cases of their kind. -/
theorem unpacked_sub_self (u : UnpackedFloat)
    : UnpackedFloat.sub Format.binary64 u u =
        if u.isFinite then .zero .positive else .notANumber := by
  cases u with
  | notANumber => rfl
  | infinity s | zero s => cases s <;> rfl
  | finite s m e hm =>
      simp only [UnpackedFloat.sub, Int.sub_self, UnpackedFloat.normalize]
      rfl

theorem toModel_sub_self (x : Float)
    : (x - x).toModel =
        Float.Model.pack (if x.isFinite then .zero .positive else .notANumber) :=
  congrArg Float.Model.pack (unpacked_sub_self x.toModel.unpack)

-----------------------------------------------------------------------------------------
-- Differences that are zero
-----------------------------------------------------------------------------------------

theorem sub_self_of_isFinite (hx : x.isFinite = true)
    : x - x = 0 := by
  apply eq_of_unpack_eq
  rw [toModel_sub_self, if_pos hx, unpack_zero]
  exact unpack_pack trivial

/-- A zero divided by what is positive is the zero of the same sign. -/
theorem unpack_div_of_zero {s : Sign} (hx : x.toModel.unpack = .zero s) (hy : 0 < y)
    : (x / y).toModel.unpack = .zero s := by
  have hsign := zero_lt_iff_sign?.mp hy
  rw [sign?] at hsign
  change (Float.Model.pack
    (UnpackedFloat.div Format.binary64 x.toModel.unpack y.toModel.unpack)).unpack = _
  rw [hx]
  cases hu : y.toModel.unpack with
  | notANumber | zero =>
      rw [hu] at hsign
      cases hsign
  | infinity t | finite t =>
      rw [hu] at hsign
      cases hsign
      cases s <;> exact unpack_pack trivial

theorem zero_div_of_pos (hx : 0 < x)
    : 0 / x = 0 :=
  eq_of_unpack_eq ((unpack_div_of_zero unpack_zero hx).trans unpack_zero.symm)

-----------------------------------------------------------------------------------------
-- Differences that are no numbers
-----------------------------------------------------------------------------------------

theorem isNaN_iff_unpack
    : x.isNaN = true ↔ x.toModel.unpack = .notANumber := by
  rw [Float.isNaN, Float.Model.isNaN]
  cases x.toModel.unpack with
  | notANumber => exact iff_of_true rfl rfl
  | infinity | zero | finite => exact iff_of_false Bool.false_ne_true (by simp)

theorem isNaN_of_pack (h : x.toModel = Float.Model.pack .notANumber)
    : x.isNaN = true := by
  rw [isNaN_iff_unpack, h]
  exact unpack_pack trivial

theorem isNaN_sub_self (hx : ¬ x.isFinite = true)
    : (x - x).isNaN = true := by
  apply isNaN_of_pack
  rw [toModel_sub_self, if_neg hx]

theorem isNaN_mul (hx : x.isNaN = true) (y : Float)
    : (x * y).isNaN = true := by
  apply isNaN_of_pack
  change Float.Model.pack (UnpackedFloat.mul Format.binary64 x.toModel.unpack y.toModel.unpack) = _
  rw [isNaN_iff_unpack.mp hx]
  cases y.toModel.unpack <;> rfl

theorem isNaN_div (hx : x.isNaN = true) (y : Float)
    : (x / y).isNaN = true := by
  apply isNaN_of_pack
  change Float.Model.pack (UnpackedFloat.div Format.binary64 x.toModel.unpack y.toModel.unpack) = _
  rw [isNaN_iff_unpack.mp hx]
  cases y.toModel.unpack <;> rfl

theorem not_le_of_isNaN (h : x.isNaN = true ∨ y.isNaN = true)
    : ¬ x ≤ y := by
  intro hle
  obtain ⟨hx, hy⟩ := isNaN_of_le hle
  rw [hx, hy] at h
  exact Bool.false_ne_true (or_self_iff.mp h)

end BenchLog.Decimal
