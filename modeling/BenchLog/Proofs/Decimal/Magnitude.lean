import BenchLog.Proofs.Decimal.Sign

/-! Opposite values and magnitudes.
The place of an opposite value is the opposite place, and that of a magnitude is the magnitude of the
place, so that comparisons with them are comparisons of places.
-/

open Float.Model Float.Model.UnpackedFloat

namespace BenchLog.Decimal

variable {x y : Float}

-----------------------------------------------------------------------------------------
-- Places
-----------------------------------------------------------------------------------------

theorem unpackedPlace_neg (u : UnpackedFloat)
    : unpackedPlace u.neg = -unpackedPlace u := by
  cases u with
  | notANumber | zero => rfl
  | infinity s => cases s <;> rfl
  | finite s m e hm =>
      have hvalue : unpackedValue (.finite (-s) m e hm) = -unpackedValue (.finite s m e hm) := by
        cases s <;> simp [unpackedValue, Sign.apply]
      change toLex ((0 : ℤ), unpackedValue (.finite (-s) m e hm)) = toLex (-0, _)
      rw [hvalue, neg_zero]
      rfl

theorem unpackedPlace_abs_nonneg (u : UnpackedFloat)
    : 0 ≤ unpackedPlace u.abs := by
  cases u with
  | notANumber | zero => exact le_refl 0
  | infinity s => exact Prod.Lex.toLex_le_toLex.mpr (Or.inl one_pos)
  | finite s m e hm =>
      have hvalue : 0 ≤ unpackedValue (.finite .positive m e hm) :=
        mul_nonneg (Nat.cast_nonneg m) (two_zpow_pos e).le
      exact Prod.Lex.toLex_le_toLex.mpr (Or.inr ⟨rfl, hvalue⟩)

theorem unpacked_abs_eq_or (u : UnpackedFloat)
    : u.abs = u ∨ u.abs = u.neg := by
  cases u with
  | notANumber => exact Or.inl rfl
  | infinity s | zero s | finite s =>
      cases s
      · exact Or.inr rfl
      · exact Or.inl rfl

/-- The magnitude is the one of a value and its opposite whose place is not negative. -/
theorem unpackedPlace_abs (u : UnpackedFloat)
    : unpackedPlace u.abs = |unpackedPlace u| := by
  have hnonneg := unpackedPlace_abs_nonneg u
  rcases unpacked_abs_eq_or u with hsame | hopposite
  · rw [hsame] at hnonneg ⊢
    exact (abs_of_nonneg hnonneg).symm
  · rw [hopposite, unpackedPlace_neg] at hnonneg ⊢
    exact (abs_of_nonpos (neg_nonneg.mp hnonneg)).symm

theorem Canonical.abs {u : UnpackedFloat} (h : Canonical u)
    : Canonical u.abs := by
  cases u with
  | notANumber | infinity | zero => trivial
  | finite s m e hm => exact h

theorem unpack_abs (x : Float)
    : x.abs.toModel.unpack = x.toModel.unpack.abs :=
  unpack_pack (canonical_unpack _).abs

theorem place_neg (x : Float)
    : place (-x) = -place x := by
  rw [place, unpack_neg, unpackedPlace_neg, place]

theorem place_abs (x : Float)
    : place x.abs = |place x| := by
  rw [place, unpack_abs, unpackedPlace_abs, place]

-----------------------------------------------------------------------------------------
-- Comparisons
-----------------------------------------------------------------------------------------

theorem isNaN_neg (x : Float)
    : (-x).isNaN = x.isNaN := by
  rw [Float.isNaN, Float.Model.isNaN, unpack_neg, Float.isNaN, Float.Model.isNaN]
  cases x.toModel.unpack <;> rfl

theorem isNaN_abs (x : Float)
    : x.abs.isNaN = x.isNaN := by
  rw [Float.isNaN, Float.Model.isNaN, unpack_abs, Float.isNaN, Float.Model.isNaN]
  cases x.toModel.unpack <;> rfl

theorem neg_le_neg_of_le (h : x ≤ y)
    : -y ≤ -x := by
  obtain ⟨hx, hy⟩ := isNaN_of_le h
  rw [le_iff_place_le hx hy] at h
  rw [le_iff_place_le ((isNaN_neg y).trans hy) ((isNaN_neg x).trans hx), place_neg, place_neg]
  exact neg_le_neg h

/-- A magnitude reaches a threshold exactly if the value or its opposite does. -/
theorem le_abs_iff
    : x ≤ y.abs ↔ x ≤ y ∨ y ≤ -x := by
  by_cases hnumbers : x.isNaN = false ∧ y.isNaN = false
  · obtain ⟨hx, hy⟩ := hnumbers
    have hneg : (-x).isNaN = false := (isNaN_neg x).trans hx
    rw [le_iff_place_le hx ((isNaN_abs y).trans hy), place_abs, le_iff_place_le hx hy,
      le_iff_place_le hy hneg, place_neg, le_abs, le_neg]
  · refine iff_of_false (fun h => ?_) ?_
    · obtain ⟨hx, hy⟩ := isNaN_of_le h
      exact hnumbers ⟨hx, (isNaN_abs y).symm.trans hy⟩
    · rintro (h | h)
      · exact hnumbers (isNaN_of_le h)
      · obtain ⟨hy, hx⟩ := isNaN_of_le h
        exact hnumbers ⟨(isNaN_neg x).symm.trans hx, hy⟩

end BenchLog.Decimal
