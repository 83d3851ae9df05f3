import BenchLog.Proofs.Decimal.Magnitude
import BenchLog.Proofs.Decimal.Vanishing

/-! Additions and subtractions that are not rounded.
What they leave is finite and stands for the exact result. Finite values that stand for one number
are equal as numbers, zeros of both signs included, and so are their quotients by a natural number.
-/

open Float.Model Float.Model.UnpackedFloat

namespace BenchLog.Decimal

variable {x y : Float}

-----------------------------------------------------------------------------------------
-- Equal numbers
-----------------------------------------------------------------------------------------

theorem place_le_iff (hx : x.isFinite = true) (hy : y.isFinite = true)
    : place x ≤ place y ↔ value x ≤ value y := by
  rw [(place_of_isFinite hx).2, (place_of_isFinite hy).2, Prod.Lex.toLex_le_toLex]
  simp

theorem le_iff_value_le (hx : x.isFinite = true) (hy : y.isFinite = true)
    : x ≤ y ↔ value x ≤ value y := by
  rw [le_iff_place_le (place_of_isFinite hx).1 (place_of_isFinite hy).1, place_le_iff hx hy]

/-- Values are equal as numbers if one is at most the other and not less. -/
theorem beq_iff
    : (x == y) = true ↔ x ≤ y ∧ ¬ x < y := by
  have hbeq : (x == y) = (x.toModel.unpack.compare y.toModel.unpack == some .eq) := rfl
  have hle : x ≤ y ↔ x.toModel.unpack.le y.toModel.unpack = true := decide_eq_true_iff
  rw [hbeq, hle, lt_iff_unpack_lt, UnpackedFloat.le, UnpackedFloat.lt]
  cases x.toModel.unpack.compare y.toModel.unpack with
  | none => decide
  | some o => cases o <;> decide

theorem beq_iff_value_eq (hx : x.isFinite = true) (hy : y.isFinite = true)
    : (x == y) = true ↔ value x = value y := by
  rw [beq_iff, le_iff_value_le hx hy, lt_iff_value_lt hx hy, not_lt, le_antisymm_iff]

theorem isFinite_of_beq (h : (x == y) = true) (hy : y.isFinite = true)
    : x.isFinite = true := by
  obtain ⟨-, -, rfl | ⟨rfl, -⟩ | ⟨rfl, -⟩⟩ := Float.beq_iff_ne_nan_and_eq.mp h
  · exact hy
  · decide
  · decide

-----------------------------------------------------------------------------------------
-- Quotients by natural numbers
-----------------------------------------------------------------------------------------

section

variable {n : Nat}

theorem zero_lt_ofNat (hpos : 0 < n) (hn : n < 2 * normalBound)
    : 0 < Float.ofNat n := by
  obtain ⟨m, e, hm, hunpack, -⟩ := exists_parts_ofNat hpos hn
  rw [zero_lt_iff, value, hunpack]
  exact Or.inr (by simpa [unpackedValue, Sign.apply] using hm.value_pos)

/-- A quotient by a natural number is no farther from zero than what is divided. -/
theorem isFinite_div_ofNat (hpos : 0 < n) (hn : n < 2 * normalBound) (hx : x.isFinite = true)
    : (x / Float.ofNat n).isFinite = true := by
  rw [Float.isFinite, Float.Model.isFinite] at hx
  cases hu : x.toModel.unpack with
  | infinity | notANumber =>
      rw [hu] at hx
      cases hx
  | zero s =>
      rw [Float.isFinite, Float.Model.isFinite, unpack_div_of_zero hu (zero_lt_ofNat hpos hn)]
      rfl
  | finite s k f hk =>
      have hone : (1 : ℚ) ≤ n := by exact_mod_cast hpos
      have hvalue : value x.abs = k * 2 ^ f := by
        rw [value, unpack_abs, hu]
        simp [UnpackedFloat.abs, unpackedValue, Sign.apply]
      apply (roundsTo_div_ofNat hpos hn hu).isFinite (x := x.abs)
      rw [hvalue]
      exact div_le_self (mul_nonneg (Nat.cast_nonneg k) (two_zpow_pos f).le) hone

theorem value_zero_div_ofNat (hpos : 0 < n) (hn : n < 2 * normalBound)
    : value (0 / Float.ofNat n) = 0 ∧ value (-0 / Float.ofNat n) = 0 := by
  have hdivisor := zero_lt_ofNat hpos hn
  have hneg : (-0 : Float).toModel.unpack = .zero .negative := by
    rw [unpack_neg, unpack_zero]
    rfl
  rw [value, value, unpack_div_of_zero unpack_zero hdivisor, unpack_div_of_zero hneg hdivisor]
  exact ⟨rfl, rfl⟩

/-- Equal numbers have equal quotients. -/
theorem div_ofNat_beq (hpos : 0 < n) (hn : n < 2 * normalBound) (hx : x.isFinite = true)
    (hy : y.isFinite = true) (h : value x = value y)
    : (x / Float.ofNat n == y / Float.ofNat n) = true := by
  have hzero := value_zero_div_ofNat hpos hn
  rw [beq_iff_value_eq (isFinite_div_ofNat hpos hn hx) (isFinite_div_ofNat hpos hn hy)]
  have hbeq := (beq_iff_value_eq hx hy).mpr h
  obtain ⟨-, -, rfl | ⟨rfl, rfl⟩ | ⟨rfl, rfl⟩⟩ := Float.beq_iff_ne_nan_and_eq.mp hbeq
  · rfl
  · exact hzero.1.trans hzero.2.symm
  · exact hzero.2.trans hzero.1.symm

end

-----------------------------------------------------------------------------------------
-- Exact results
-----------------------------------------------------------------------------------------

/-- The sum of two values is not rounded. -/
structure AddsExactly (x y : Float) : Prop where
  finite : (x + y).isFinite = true
  value_eq : value (x + y) = value x + value y

/-- The difference of two values is not rounded. -/
structure SubtractsExactly (x y : Float) : Prop where
  finite : (x - y).isFinite = true
  value_eq : value (x - y) = value x - value y

instance (x y : Float) : Decidable (AddsExactly x y) :=
  decidable_of_iff ((x + y).isFinite = true ∧ value (x + y) = value x + value y)
    ⟨fun h => ⟨h.1, h.2⟩, fun h => ⟨h.finite, h.value_eq⟩⟩

instance (x y : Float) : Decidable (SubtractsExactly x y) :=
  decidable_of_iff ((x - y).isFinite = true ∧ value (x - y) = value x - value y)
    ⟨fun h => ⟨h.1, h.2⟩, fun h => ⟨h.finite, h.value_eq⟩⟩

/-- No addition of the next value to the running total is rounded. -/
def AddsAllExactly : Float → List Float → Prop
  | _, [] => True
  | total, x :: xs => AddsExactly total x ∧ AddsAllExactly (total + x) xs

def decidableAddsAllExactly : (total : Float) → (xs : List Float) →
    Decidable (AddsAllExactly total xs)
  | _, [] => inferInstanceAs (Decidable True)
  | total, x :: xs =>
      have := decidableAddsAllExactly (total + x) xs
      inferInstanceAs (Decidable (AddsExactly total x ∧ AddsAllExactly (total + x) xs))

instance (total : Float) (xs : List Float) : Decidable (AddsAllExactly total xs) :=
  decidableAddsAllExactly total xs

/-- A total without rounding stands for the sum of the numbers, by induction along them. -/
theorem AddsAllExactly.foldl {total : Float} {xs : List Float} (h : AddsAllExactly total xs)
    (htotal : total.isFinite = true)
    : (xs.foldl (· + ·) total).isFinite = true
      ∧ value (xs.foldl (· + ·) total) = value total + (xs.map value).sum := by
  induction xs generalizing total with
  | nil => exact ⟨htotal, (add_zero _).symm⟩
  | cons x xs ih =>
      obtain ⟨hsum, hrest⟩ := h
      obtain ⟨hfinite, hvalue⟩ := ih hrest hsum.finite
      rw [List.foldl_cons, List.map_cons, List.sum_cons, ← add_assoc, ← hsum.value_eq]
      exact ⟨hfinite, hvalue⟩

end BenchLog.Decimal
