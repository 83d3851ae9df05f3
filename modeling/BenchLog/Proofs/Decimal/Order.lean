import BenchLog.Proofs.Decimal.Nearest

/-! The order of floating-point values.
A value that is a number has a place among the rational numbers between the two infinities, and it
is less than another exactly if its place is.
-/

open Float.Model Float.Model.UnpackedFloat

namespace BenchLog.Decimal

-----------------------------------------------------------------------------------------
-- What a value stands for
-----------------------------------------------------------------------------------------

/-- The rational number that unpacked parts stand for; what is not finite counts as zero. -/
def unpackedValue : UnpackedFloat → ℚ
  | .finite sign m e _ => sign.apply m * 2 ^ e
  | _ => 0

/-- The place of unpacked parts: below, among or above the rational numbers, and which. -/
def unpackedPlace : UnpackedFloat → ℤ ×ₗ ℚ
  | .infinity .negative => toLex (-1, 0)
  | .infinity .positive => toLex (1, 0)
  | u => toLex (0, unpackedValue u)

def value (x : Float) : ℚ :=
  unpackedValue x.toModel.unpack

def place (x : Float) : ℤ ×ₗ ℚ :=
  unpackedPlace x.toModel.unpack

/-- Finite parts are those of a significand in its range at its exponent. -/
def Canonical : UnpackedFloat → Prop
  | .finite _ m e _ => IsFinite m e
  | _ => True

/-- The parts of a value are canonical, by the cases of its exponent field. -/
theorem canonical_unpack (x : Float.Model)
    : Canonical x.unpack := by
  have hm := toNat_unpackMantissa x.toBits.toBitVec
  have he := toNat_unpackExponent x.toBits.toBitVec
  have hlt : x.toBits.toBitVec.toNat % normalBound < normalBound := Nat.mod_lt _ (by decide)
  unfold Float.Model.unpack UnpackedFloat.unpack
  dsimp only
  split
  · split <;> trivial
  · next hinfinite =>
      have hne : x.toBits.toBitVec.toNat / normalBound % 2048 ≠ 2047 := by
        intro h
        exact hinfinite (BitVec.eq_of_toNat_eq (he.trans h))
      split
      · next hzero =>
          split
          · trivial
          · next hmantissa =>
              have hpos : 0 < x.toBits.toBitVec.toNat % normalBound := by
                rw [← hm, Nat.pos_iff_ne_zero]
                exact fun h => hmantissa (BitVec.eq_of_toNat_eq h)
              have hexponent : (0 : Int) - (1023 + 52) + 1 = minExponent := by decide
              simp only [Canonical, hm, hzero]
              change IsFinite _ ((0 : Int) - (1023 + 52) + 1)
              rw [hexponent]
              exact ⟨hpos, by omega, le_refl _, by decide, fun h => absurd h (lt_irrefl _)⟩
      · next hzero =>
          have hpos : x.toBits.toBitVec.toNat / normalBound % 2048 ≠ 0 := by
            intro h
            exact hzero (BitVec.eq_of_toNat_eq (he.trans h))
          have hfraction
              : (1#1 ++ @unpackMantissa Format.binary64 x.toBits.toBitVec).toNat =
                  normalBound + x.toBits.toBitVec.toNat % normalBound := by
            rw [← hm, BitVec.toNat_append, ← Nat.shiftLeft_add_eq_or_of_lt (BitVec.isLt _)]
            rfl
          simp only [Canonical, hfraction, he]
          change IsFinite _ (_ - (1023 + 52))
          have hrange : x.toBits.toBitVec.toNat / normalBound % 2048 < 2048 :=
            Nat.mod_lt _ (by decide)
          have hb : 0 < normalBound := by decide
          exact ⟨by omega, by omega, by simp only [minExponent]; omega, by omega, fun _ => by omega⟩

-----------------------------------------------------------------------------------------
-- The order of finite values
-----------------------------------------------------------------------------------------

section

variable {m n : Nat} {e f : Int}

theorem IsFinite.value_pos (h : IsFinite m e)
    : (0 : ℚ) < m * 2 ^ e := by
  have hm : (0 : ℚ) < m := by exact_mod_cast h.positive
  exact mul_pos hm (zpow_pos (by norm_num) e)

/-- A significand stays below a normal one at a greater exponent. -/
theorem IsFinite.value_lt (h : IsFinite m e) (h' : IsFinite n f) (hlt : e < f)
    : (m : ℚ) * 2 ^ e < n * 2 ^ f := by
  have hm : (m : ℚ) < 2 * normalBound := by exact_mod_cast h.bounded
  have hn : (normalBound : ℚ) ≤ n := by exact_mod_cast h'.normal (lt_of_le_of_lt h.least hlt)
  have he : (0 : ℚ) < 2 ^ e := zpow_pos (by norm_num) e
  have hf : (2 : ℚ) ^ (e + 1) ≤ 2 ^ f := zpow_le_zpow_right₀ (by norm_num) hlt
  calc
    (m : ℚ) * 2 ^ e < 2 * normalBound * 2 ^ e := mul_lt_mul_of_pos_right hm he
    _ = normalBound * 2 ^ (e + 1) := by
      rw [zpow_add_one₀ (by norm_num)]
      ring
    _ ≤ n * 2 ^ f := mul_le_mul hn hf (zpow_pos (by norm_num) _).le (by linarith [hn])

/-- Significands are compared by their exponents first. -/
theorem IsFinite.value_lt_iff (h : IsFinite m e) (h' : IsFinite n f)
    : (m : ℚ) * 2 ^ e < n * 2 ^ f ↔ (compare e f).then (compare m n) = .lt := by
  rcases lt_trichotomy e f with hlt | rfl | hgt
  · rw [compare_lt_iff_lt.mpr hlt]
    exact iff_of_true (h.value_lt h' hlt) rfl
  · have he : (0 : ℚ) < 2 ^ e := zpow_pos (by norm_num) e
    rw [compare_eq_iff_eq.mpr rfl, mul_lt_mul_iff_left₀ he, Nat.cast_lt]
    exact compare_lt_iff_lt.symm
  · rw [compare_gt_iff_gt.mpr hgt]
    exact iff_of_false (h'.value_lt h hgt).asymm fun h => nomatch h

end

-----------------------------------------------------------------------------------------
-- The order of all numbers
-----------------------------------------------------------------------------------------

/-- Finite parts are in the order of their values. -/
theorem IsFinite.unpacked_lt_iff {m n : Nat} {e f : Int} (h : IsFinite m e) (h' : IsFinite n f)
    (s t : Sign)
    : (UnpackedFloat.finite s m e h.positive).lt (.finite t n f h'.positive) = true ↔
        (s.apply m : ℚ) * 2 ^ e < t.apply n * 2 ^ f := by
  have hp := h.value_pos
  have hq := h'.value_pos
  cases s with
  | negative =>
      cases t with
      | negative =>
          simp only [UnpackedFloat.lt, UnpackedFloat.compare, beq_iff_eq, Option.some.injEq,
            Sign.apply, Int.cast_neg, Int.cast_natCast, neg_mul, neg_lt_neg_iff]
          rw [Ordering.swap_then, Int.compare_swap, Nat.compare_swap]
          exact (h'.value_lt_iff h).symm
      | positive =>
          simp only [UnpackedFloat.lt, UnpackedFloat.compare, beq_self_eq_true, Sign.apply,
            Int.cast_neg, Int.cast_natCast, neg_mul, true_iff]
          linarith
  | positive =>
      cases t with
      | negative =>
          simp only [UnpackedFloat.lt, UnpackedFloat.compare, beq_iff_eq, Option.some.injEq,
            reduceCtorEq, Sign.apply, Int.cast_neg, Int.cast_natCast, neg_mul, false_iff]
          linarith
      | positive =>
          simp only [UnpackedFloat.lt, UnpackedFloat.compare, beq_iff_eq, Option.some.injEq,
            Sign.apply, Int.cast_natCast]
          exact (h.value_lt_iff h').symm

/-- The order of unpacked parts is that of their places, by the cases of their kinds. -/
theorem Canonical.lt_iff {u v : UnpackedFloat} (hu : Canonical u) (hv : Canonical v)
    (hnu : u ≠ .notANumber) (hnv : v ≠ .notANumber)
    : u.lt v = true ↔ unpackedPlace u < unpackedPlace v := by
  cases u with
  | notANumber => exact absurd rfl hnu
  | infinity s =>
      cases v with
      | notANumber => exact absurd rfl hnv
      | infinity t => cases s <;> cases t <;> decide
      | zero t => cases s <;> cases t <;> decide
      | finite t n f hn =>
          cases s <;> cases t <;>
            simp [UnpackedFloat.lt, UnpackedFloat.compare, unpackedPlace, Prod.Lex.toLex_lt_toLex]
  | zero s =>
      cases v with
      | notANumber => exact absurd rfl hnv
      | infinity t => cases s <;> cases t <;> decide
      | zero t => cases s <;> cases t <;> decide
      | finite t n f hn =>
          have hq := IsFinite.value_pos hv
          cases t <;>
            simp [UnpackedFloat.lt, UnpackedFloat.compare, unpackedPlace, unpackedValue,
              Prod.Lex.toLex_lt_toLex, Sign.apply, hq, hq.le]
  | finite s m e hm =>
      have hp := IsFinite.value_pos hu
      cases v with
      | notANumber => exact absurd rfl hnv
      | infinity t =>
          cases s <;> cases t <;>
            simp [UnpackedFloat.lt, UnpackedFloat.compare, unpackedPlace, Prod.Lex.toLex_lt_toLex]
      | zero t =>
          cases s <;>
            simp [UnpackedFloat.lt, UnpackedFloat.compare, unpackedPlace, unpackedValue,
              Prod.Lex.toLex_lt_toLex, Sign.apply, hp, hp.le]
      | finite t n f hn =>
          simpa [unpackedPlace, unpackedValue, Prod.Lex.toLex_lt_toLex]
            using IsFinite.unpacked_lt_iff hu hv s t

theorem lt_iff_unpack_lt {x y : Float}
    : x < y ↔ x.toModel.unpack.lt y.toModel.unpack = true :=
  decide_eq_true_iff

theorem unpack_ne_notANumber {x : Float} (hx : x.isNaN = false)
    : x.toModel.unpack ≠ .notANumber := by
  intro hn
  rw [Float.isNaN, Float.Model.isNaN, hn] at hx
  cases hx

/-- Numbers are less exactly if their places are. -/
theorem lt_iff_place_lt {x y : Float} (hx : x.isNaN = false) (hy : y.isNaN = false)
    : x < y ↔ place x < place y := by
  rw [lt_iff_unpack_lt]
  exact (canonical_unpack _).lt_iff (canonical_unpack _) (unpack_ne_notANumber hx)
    (unpack_ne_notANumber hy)

-----------------------------------------------------------------------------------------
-- Numbers that are at most others
-----------------------------------------------------------------------------------------

/-- Of two significands with their exponents one is at most the other, or the other one is less. -/
theorem isLE_compare_then_iff (e f : Int) (m n : Nat)
    : ((compare e f).then (compare m n)).isLE = true ↔
        (compare f e).then (compare n m) ≠ .lt := by
  rw [← Int.compare_swap, ← Nat.compare_swap, ← Ordering.swap_then]
  cases (compare f e).then (compare n m) <;> decide

/-- The order of unpacked parts that are numbers is total, by the cases of their kinds. -/
theorem unpacked_le_iff {u v : UnpackedFloat} (hu : u ≠ .notANumber) (hv : v ≠ .notANumber)
    : u.le v = true ↔ ¬ v.lt u = true := by
  cases u with
  | notANumber => exact absurd rfl hu
  | infinity s =>
      cases v with
      | notANumber => exact absurd rfl hv
      | infinity t => cases s <;> cases t <;> decide
      | zero t => cases s <;> cases t <;> decide
      | finite t n f hn =>
          cases s <;> cases t <;> simp [UnpackedFloat.le, UnpackedFloat.lt, UnpackedFloat.compare]
  | zero s =>
      cases v with
      | notANumber => exact absurd rfl hv
      | infinity t => cases s <;> cases t <;> decide
      | zero t => cases s <;> cases t <;> decide
      | finite t n f hn =>
          cases t <;> simp [UnpackedFloat.le, UnpackedFloat.lt, UnpackedFloat.compare]
  | finite s m e hm =>
      cases v with
      | notANumber => exact absurd rfl hv
      | infinity t =>
          cases t <;> simp [UnpackedFloat.le, UnpackedFloat.lt, UnpackedFloat.compare]
      | zero t =>
          cases s <;> simp [UnpackedFloat.le, UnpackedFloat.lt, UnpackedFloat.compare]
      | finite t n f hn =>
          cases s with
          | negative =>
              cases t with
              | positive => simp [UnpackedFloat.le, UnpackedFloat.lt, UnpackedFloat.compare]
              | negative =>
                  simp only [UnpackedFloat.le, UnpackedFloat.lt, UnpackedFloat.compare,
                    Option.any_some, beq_iff_eq, Option.some.injEq, Ordering.swap_then,
                    Int.compare_swap, Nat.compare_swap]
                  exact isLE_compare_then_iff f e n m
          | positive =>
              cases t with
              | negative => simp [UnpackedFloat.le, UnpackedFloat.lt, UnpackedFloat.compare]
              | positive =>
                  simp only [UnpackedFloat.le, UnpackedFloat.lt, UnpackedFloat.compare,
                    Option.any_some, beq_iff_eq, Option.some.injEq]
                  exact isLE_compare_then_iff e f m n

/-- Numbers are at most others exactly if their places are. -/
theorem le_iff_place_le {x y : Float} (hx : x.isNaN = false) (hy : y.isNaN = false)
    : x ≤ y ↔ place x ≤ place y := by
  have hle : x ≤ y ↔ x.toModel.unpack.le y.toModel.unpack = true := decide_eq_true_iff
  rw [hle, unpacked_le_iff (unpack_ne_notANumber hx) (unpack_ne_notANumber hy),
    ← lt_iff_unpack_lt, lt_iff_place_lt hy hx, not_lt]

theorem not_le_iff {x y : Float} (hx : x.isNaN = false) (hy : y.isNaN = false)
    : ¬ x ≤ y ↔ y < x := by
  rw [le_iff_place_le hx hy, lt_iff_place_lt hy hx, not_le]

-----------------------------------------------------------------------------------------
-- Chains of comparisons
-----------------------------------------------------------------------------------------

theorem isNaN_of_compare {u v : UnpackedFloat} {o : Ordering} (h : u.compare v = some o)
    : u.isNaN = false ∧ v.isNaN = false := by
  cases u with
  | notANumber => cases h
  | infinity | zero | finite =>
      cases v with
      | notANumber => cases h
      | infinity | zero | finite => exact ⟨rfl, rfl⟩

/-- Only numbers are less than others. -/
theorem isNaN_of_lt {x y : Float} (h : x < y)
    : x.isNaN = false ∧ y.isNaN = false := by
  rw [lt_iff_unpack_lt, UnpackedFloat.lt, beq_iff_eq] at h
  exact isNaN_of_compare h

theorem isNaN_of_le {x y : Float} (h : x ≤ y)
    : x.isNaN = false ∧ y.isNaN = false := by
  have hle : x.toModel.unpack.le y.toModel.unpack = true := decide_eq_true_iff.mp h
  obtain ⟨o, ho, -⟩ := (Option.any_eq_true _ _).mp hle
  exact isNaN_of_compare ho

theorem le_le_trans {x y z : Float} (hxy : x ≤ y) (hyz : y ≤ z)
    : x ≤ z := by
  obtain ⟨hx, hy⟩ := isNaN_of_le hxy
  obtain ⟨-, hz⟩ := isNaN_of_le hyz
  rw [le_iff_place_le hx hy] at hxy
  rw [le_iff_place_le hy hz] at hyz
  rw [le_iff_place_le hx hz]
  exact hxy.trans hyz

theorem lt_le_trans {x y z : Float} (hxy : x < y) (hyz : y ≤ z)
    : x < z := by
  obtain ⟨hx, hy⟩ := isNaN_of_lt hxy
  obtain ⟨-, hz⟩ := isNaN_of_le hyz
  rw [lt_iff_place_lt hx hy] at hxy
  rw [le_iff_place_le hy hz] at hyz
  rw [lt_iff_place_lt hx hz]
  exact hxy.trans_le hyz

theorem le_lt_trans {x y z : Float} (hxy : x ≤ y) (hyz : y < z)
    : x < z := by
  obtain ⟨hx, -⟩ := isNaN_of_le hxy
  obtain ⟨hy, hz⟩ := isNaN_of_lt hyz
  rw [le_iff_place_le hx hy] at hxy
  rw [lt_iff_place_lt hy hz] at hyz
  rw [lt_iff_place_lt hx hz]
  exact hxy.trans_lt hyz

theorem not_gt_of_lt {x y : Float} (h : x < y)
    : ¬ y < x := by
  obtain ⟨hx, hy⟩ := isNaN_of_lt h
  rw [lt_iff_place_lt hx hy] at h
  rw [lt_iff_place_lt hy hx]
  exact h.not_gt

end BenchLog.Decimal
