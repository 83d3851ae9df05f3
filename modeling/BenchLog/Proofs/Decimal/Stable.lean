import BenchLog.Proofs.Decimal.Covering
import BenchLog.Proofs.Decimal.General

/-! Reading back six significant digits.
The value read is so near to the digits that they are its nearest ones too, and it is written like
the value before. The units of some values below the normal ones are too large for that.
-/

namespace BenchLog.Decimal

-----------------------------------------------------------------------------------------
-- Digits that are nearest to two numbers
-----------------------------------------------------------------------------------------

namespace Significant

section

variable {count : Nat} {s t : Significant} {v : ℚ}

/-- Digits are nearest to what is less than half a unit of the exponent before away, which is so on
both sides of a power of ten. -/
theorem Full.nearest_of_abs_sub_lt (full : s.Full count) (hcount : 0 < count)
    (close : |v - s.value count| < unit count (s.exponent - 1) / 2)
    : s.Nearest count v := by
  have hu := unit_pos count (s.exponent - 1)
  have hunit := unit_succ count (s.exponent - 1)
  rw [sub_add_cancel] at hunit
  have hvalue : s.value count = ((10 * s.units : Nat) : ℚ) * unit count (s.exponent - 1) := by
    rw [value, hunit]
    push_cast
    ring
  have hlow : (10 : ℚ) ^ (s.exponent - 1) ≤ v := by
    have hbelow := (abs_lt.mp close).1
    have hleast := full.pow_le_value hcount
    have hone : (1 : ℚ) ≤ 10 ^ (count - 1) := one_le_pow₀ (by norm_num)
    have hpow := pow_mul_unit hcount (s.exponent - 1)
    have hten : (10 : ℚ) ^ s.exponent = 10 ^ (s.exponent - 1) * 10 := by
      rw [← zpow_add_one₀ (by norm_num), sub_add_cancel]
    linarith [mul_le_mul_of_nonneg_right hone hu.le]
  rw [hvalue] at close
  exact nearest_of_abs_sub_le hcount full hvalue hlow close.le fun tie => absurd tie close.ne

/-- The nearest digits are at least a tenth of the number. -/
theorem Nearest.lt_ten_mul (h : s.Nearest count v) (hcount : 0 < count)
    : v < 10 * s.value count := by
  have hnext : (⟨10 ^ (count - 1), s.exponent + 1⟩ : Significant).Full count :=
    ⟨le_refl _, Nat.pow_lt_pow_right (by decide) (by omega)⟩
  have hvalue : value count ⟨10 ^ (count - 1), s.exponent + 1⟩ = 10 ^ (s.exponent + 1) := by
    rw [value, Nat.cast_pow, Nat.cast_ofNat, pow_mul_unit hcount]
  have hnear := h.near hnext
  have hbelow := h.full.value_lt_pow
  have hleast := h.full.pow_le_value hcount
  rw [hvalue] at hnear
  have hten : (10 : ℚ) ^ (s.exponent + 1) = 10 * 10 ^ s.exponent := by
    rw [zpow_add_one₀ (by norm_num), mul_comm]
  by_contra hle
  rw [abs_of_nonneg (by linarith), abs_of_nonneg (by linarith)] at hnear
  linarith

/-- Less than half a unit above some digits the nearest ones are no greater. -/
theorem Nearest.value_le_of_lt (h : s.Nearest count v) (ht : t.Full count) (hcount : 0 < count)
    (close : v < t.value count + unit count t.exponent / 2)
    : s.value count ≤ t.value count := by
  by_contra hnot
  have hlt : t.value count < s.value count := lt_of_not_ge hnot
  have hu := unit_pos count t.exponent
  have hnear := h.near ht
  have hnext : t.value count + unit count t.exponent ≤ s.value count := by
    rcases ht.add_unit_eq_or_le h.full hcount hlt with heq | hle
    · exact heq.le
    · linarith
  have habove := neg_le_abs (v - s.value count)
  rcases le_total v (t.value count) with hle | hge
  · rw [abs_of_nonpos (by linarith : v - t.value count ≤ 0)] at hnear
    linarith
  · rw [abs_of_nonneg (by linarith : 0 ≤ v - t.value count)] at hnear
    linarith

/-- Digits are nearest to the value that they are read as, if its significand has more digits. -/
theorem Full.nearest_of_contains (full : s.Full count) (hcount : 0 < count) {m : Nat} {e : Int}
    (within : (Interval.ofSignificand m e).Contains e (s.value count))
    (precise : 10 ^ (count + 1) < m)
    : s.Nearest count (m * 2 ^ e) := by
  have hu := two_zpow_pos e
  have herror := within.abs_sub_le (Nat.zero_lt_of_lt precise)
  have habove := (abs_le.mp herror).2
  have hbelow := full.value_lt_pow
  have hm : (10 : ℚ) ^ (count + 1) + 1 ≤ m := by exact_mod_cast precise
  have hunit : (10 : ℚ) ^ (s.exponent + 1) = 10 ^ (count + 1) * unit count (s.exponent - 1) := by
    rw [← pow_mul_unit_succ count, pow_succ, mul_assoc, ← unit_succ, sub_add_cancel]
  apply full.nearest_of_abs_sub_lt hcount
  have hpow : (0 : ℚ) < 10 ^ (count + 1) := by positivity
  have hless : (2 : ℚ) ^ e < unit count (s.exponent - 1) := by
    apply lt_of_mul_lt_mul_left _ hpow.le
    rw [← hunit]
    linarith [mul_le_mul_of_nonneg_right hm hu.le]
  linarith

end

end Significant

-----------------------------------------------------------------------------------------
-- The range of the normal values
-----------------------------------------------------------------------------------------

/-- A value other than zero that is smaller than the least normal one. -/
def IsSubnormal (x : Float) : Prop :=
  0 < |value x| ∧ |value x| < 2 ^ (-1022 : Int)

instance (x : Float) : Decidable (IsSubnormal x) :=
  inferInstanceAs (Decidable (_ ∧ _))

section

variable {m n : Nat} {e : Int} {v : ℚ} {s : Significant}

/-- A significand has many units if what rounds to it has many of the least ones. -/
theorem IsFinite.lt_of_contains (finite : IsFinite m e)
    (within : (Interval.ofSignificand m e).Contains e v) (hn : n < normalBound)
    (low : (n + 1) * 2 ^ minExponent ≤ v)
    : n < m := by
  rcases finite.least.eq_or_lt with heq | hlt
  · have hnear := (abs_le.mp (within.abs_sub_le finite.positive)).1
    have hunits : (n + 1) * 2 ^ e < (m + 1 : ℚ) * 2 ^ e := by
      rw [heq] at low
      linarith [two_zpow_pos e]
    have hlt := lt_of_mul_lt_mul_right hunits (two_zpow_pos e).le
    exact Nat.lt_of_add_lt_add_right (by exact_mod_cast hlt : n + 1 < m + 1)
  · exact lt_of_lt_of_le hn (finite.normal hlt)

/-- The greatest value lies between its six digits and the middle of these and the next ones. -/
theorem greatest_bounds
    : Significant.value 6 ⟨179769, 308⟩ ≤ (2 * normalBound - 1) * greatestUnit
      ∧ (2 * normalBound - 1) * greatestUnit <
          Significant.value 6 ⟨179769, 308⟩ + Significant.unit 6 308 / 2 := by
  have hunit : Significant.unit 6 308 = ((10 ^ 303 : Nat) : ℚ) := by
    rw [Significant.unit, Nat.cast_pow, ← zpow_natCast]
    rfl
  have hgreatest : greatestUnit = ((2 ^ 971 : Nat) : ℚ) := by
    rw [greatestUnit, Nat.cast_pow, ← zpow_natCast]
    rfl
  have hbelow : 179769 * 10 ^ 303 + 2 ^ 971 ≤ 2 * normalBound * 2 ^ 971 := by decide +kernel
  have habove : 4 * normalBound * 2 ^ 971 < 359539 * 10 ^ 303 + 2 * 2 ^ 971 := by decide +kernel
  rw [Significant.value, hunit, hgreatest]
  -- the powers stay as they are
  generalize 10 ^ 303 = ten at *
  generalize 2 ^ 971 = two at *
  have hbelow : (179769 * ten + two : ℚ) ≤ 2 * normalBound * two := by exact_mod_cast hbelow
  have habove : (4 * normalBound * two : ℚ) < 359539 * ten + 2 * two := by exact_mod_cast habove
  push_cast
  constructor <;> linarith

/-- The six digits of the greatest value are below it. -/
theorem Significant.Nearest.value_le_greatest (h : s.Nearest 6 v)
    (high : v ≤ (2 * normalBound - 1) * greatestUnit)
    : s.value 6 ≤ (2 * normalBound - 1) * greatestUnit := by
  have hdigits : (⟨179769, 308⟩ : Significant).Full 6 := by
    constructor <;> decide
  obtain ⟨hbelow, habove⟩ := greatest_bounds
  exact (h.value_le_of_lt hdigits (by decide) (lt_of_le_of_lt high habove)).trans hbelow

/-- The six digits of a normal number are read as a value, and they are nearest to it again. -/
theorem Significant.Nearest.exists_contains (h : s.Nearest 6 v) (low : 2 ^ (-1022 : Int) ≤ v)
    (high : v ≤ (2 * normalBound - 1) * greatestUnit)
    : ∃ m e,
        IsFinite m e
        ∧ (Interval.ofSignificand m e).Contains e (s.value 6)
        ∧ s.Nearest 6 (m * 2 ^ e) := by
  have htenth := h.lt_ten_mul (by decide)
  have hlow : ((10 ^ 7 : Nat) + 1 : ℚ) * 2 ^ minExponent ≤ s.value 6 := by
    have hleast : (normalBound : ℚ) * 2 ^ minExponent = 2 ^ (-1022 : Int) :=
      normalBound_mul_zpow minExponent
    have hunits : 10 * ((10 ^ 7 : Nat) + 1 : ℚ) ≤ normalBound := by norm_num [normalBound]
    linarith [mul_le_mul_of_nonneg_right hunits (two_zpow_pos minExponent).le]
  have hleast : 2 ^ minExponent / 2 < s.value 6 := by
    push_cast at hlow
    linarith [two_zpow_pos minExponent]
  obtain ⟨m, e, finite, within⟩ := Decimal.exists_contains hleast (h.value_le_greatest high)
  have precise := finite.lt_of_contains within (by decide) hlow
  exact ⟨m, e, finite, within, h.full.nearest_of_contains (by decide) within precise⟩

end

-----------------------------------------------------------------------------------------
-- Texts
-----------------------------------------------------------------------------------------

/-- Numbers with the same six digits are written in the same way. -/
theorem general_eq_of_nearest {r q : Ratio} (hrn : 0 < r.num) (hrd : 0 < r.den) (hqn : 0 < q.num)
    (hqd : 0 < q.den) (h : (r.significant 6).Nearest 6 q.value)
    : q.general = r.general := by
  have hsame := h.eq (Ratio.nearest_significant hqn hqd (by decide)) (by decide)
  rw [general_eq hqn hqd, general_eq hrn hrd, hsame]

/-- The text of a normal significand is read as a significand with the same text. -/
theorem IsFinite.exists_reread {m : Nat} {e : Int} (finite : IsFinite m e) (negative : Bool)
    (low : 2 ^ (-1022 : Int) ≤ (m : ℚ) * 2 ^ e)
    : ∃ n f,
        IsFinite n f
        ∧ readFloatChars? (signed negative (binaryRatio m e).general) =
          some (floatOfCode negative (codeOf n f))
        ∧ (binaryRatio n f).general = (binaryRatio m e).general := by
  have hpositive {k : Nat} (f : Int) (h : 0 < k)
      : 0 < (binaryRatio k f).num ∧ 0 < (binaryRatio k f).den :=
    ⟨Nat.mul_pos h (Nat.pow_pos (by decide)), Ratio.den_scale_pos Nat.one_pos (by decide) _⟩
  obtain ⟨hn, hd⟩ := hpositive e finite.positive
  have hnearest := Ratio.nearest_significant hn hd (by decide : 2 ≤ 6)
  rw [value_binaryRatio] at hnearest
  obtain ⟨n, f, finite', within, hagain⟩ := hnearest.exists_contains low finite.value_le_greatest
  obtain ⟨hn', hd'⟩ := hpositive f finite'.positive
  refine ⟨n, f, finite', ?_, ?_⟩
  · exact (isGeneral_general hn hd).spells.readFloatChars? negative finite' within
  · rw [← value_binaryRatio] at hagain
    exact general_eq_of_nearest hn hd hn' hd' hagain

/-- The text of a value that is not subnormal is read as a value with the same text, by the kinds
of values. -/
theorem exists_general_eq_general {x : Float} (normal : ¬ IsSubnormal x)
    : ∃ y, readFloat? (general x) = some y ∧ general y = general x := by
  cases hnumber : Number.ofFloat x with
  | nan =>
      obtain rfl := eq_of_ofFloat_nan hnumber
      exact ⟨notANumber, by decide +kernel, rfl⟩
  | infinite negative =>
      obtain rfl := eq_of_ofFloat_infinite hnumber
      cases negative <;> exact ⟨_, by decide +kernel, rfl⟩
  | finite negative m e =>
      obtain ⟨hx, ⟨rfl, rfl⟩ | finite⟩ := eq_of_ofFloat_finite hnumber
      · subst hx
        cases negative <;> exact ⟨floatOfCode _ 0, by decide +kernel, rfl⟩
      · have hvalue := abs_value_of_ofFloat hnumber
        have low : 2 ^ (-1022 : Int) ≤ (m : ℚ) * 2 ^ e := by
          by_contra hlt
          rw [IsSubnormal, hvalue] at normal
          exact normal ⟨finite.value_pos, lt_of_not_ge hlt⟩
        obtain ⟨n, f, finite', hread, htext⟩ := finite.exists_reread negative low
        refine ⟨floatOfCode negative (codeOf n f), ?_, ?_⟩
        · rw [general, hnumber, generalChars, if_neg finite.positive.ne', readFloat?,
            String.toList_ofList, hread]
        · rw [general, general, ofFloat_floatOfCode negative finite', hnumber, generalChars,
            generalChars, if_neg finite'.positive.ne', if_neg finite.positive.ne', htext]

/-- The least normal value is read back as a smaller one, which is written with the same digits. -/
theorem exists_general_eq_general_least
    : ¬ IsSubnormal 2.2250738585072014e-308
      ∧ general 2.2250738585072014e-308 = "2.22507e-308"
      ∧ ∃ y, IsSubnormal y ∧ readFloat? "2.22507e-308" = some y ∧ general y = "2.22507e-308" := by
  have normal : ¬ IsSubnormal 2.2250738585072014e-308 := by decide +kernel
  have htext : general 2.2250738585072014e-308 = "2.22507e-308" := by decide +kernel
  obtain ⟨y, hread, hagain⟩ := exists_general_eq_general normal
  rw [htext] at hread hagain
  have hy : readFloat? "2.22507e-308" = some 2.22507e-308 := by decide +kernel
  obtain rfl := Option.some.inj (hread.symm.trans hy)
  exact ⟨normal, htext, _, by decide +kernel, hread, hagain⟩

/-- Next to a power of ten the digits of a subnormal value may be read as a value with others. -/
example
    : general 1.000004e-318 = "1e-318"
      ∧ readFloat? "1e-318" = some 1e-318
      ∧ general 1e-318 = "9.99999e-319" := by
  decide +kernel

end BenchLog.Decimal
