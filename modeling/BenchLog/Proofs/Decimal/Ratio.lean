import Mathlib.Algebra.Order.Field.Rat
import Mathlib.Algebra.Order.Field.Power
import Mathlib.Tactic.FieldSimp
import Mathlib.Tactic.Linarith
import Mathlib.Tactic.Positivity
import Mathlib.Tactic.Ring
import BenchLog.Decimal.Ratio

/-! Quotients of natural numbers as rational numbers.
Scaling multiplies by a power, rounding gives the nearest integer, and the exponent is the only
one whose powers enclose the quotient; none of them depends on how the quotient is written.
-/

namespace BenchLog.Decimal

-----------------------------------------------------------------------------------------
-- Powers
-----------------------------------------------------------------------------------------

/-- A number is below the power of the base that its digits count. -/
theorem lt_pow_digitCount {base : Nat} (hb : 2 ≤ base) (n : Nat)
    : n < base ^ digitCount base n := by
  fun_induction digitCount base n with
  | case1 n h =>
      have : n = 0 := by omega
      simp [this]
  | case2 n h ih =>
      rw [Nat.pow_succ]
      exact (Nat.div_lt_iff_lt_mul (by omega)).mp ih

theorem digitCount_pos {base : Nat} (hb : 2 ≤ base) {n : Nat} (hn : 0 < n)
    : 0 < digitCount base n := by
  rw [digitCount, dif_neg (by omega)]
  omega

/-- A positive number reaches the power of the base one below its count of digits. -/
theorem pow_digitCount_pred_le {base : Nat} (hb : 2 ≤ base) {n : Nat} (hn : 0 < n)
    : base ^ (digitCount base n - 1) ≤ n := by
  fun_induction digitCount base n with
  | case1 n h => omega
  | case2 n h ih =>
      by_cases hq : n / base = 0
      · rw [hq, digitCount]
        simp
        omega
      · have hp : 0 < n / base := Nat.pos_of_ne_zero hq
        have hd := digitCount_pos hb hp
        have hle := ih hp
        have : base ^ (digitCount base (n / base) - 1) * base ≤ n :=
          Nat.le_trans (Nat.mul_le_mul_right base hle) (Nat.div_mul_le_self n base)
        rw [← Nat.pow_succ] at this
        have he : (digitCount base (n / base) - 1).succ = digitCount base (n / base) + 1 - 1 := by
          omega
        rwa [he] at this

/-- A positive number has one digit more than the greatest power of the base that it reaches. -/
theorem exists_digitCount_eq {base : Nat} (hb : 2 ≤ base) {n : Nat} (hn : 0 < n)
    : ∃ k, digitCount base n = k + 1 ∧ base ^ k ≤ n ∧ n < base ^ (k + 1) := by
  have hpos := digitCount_pos hb hn
  have hlow := pow_digitCount_pred_le hb hn
  have hhigh := lt_pow_digitCount hb n
  obtain ⟨k, hk⟩ := Nat.exists_eq_add_of_le' hpos
  rw [hk] at hlow hhigh
  exact ⟨k, hk, hlow, hhigh⟩

namespace Ratio

def value (r : Ratio) : ℚ :=
  r.num / r.den

theorem value_mul_den {r : Ratio} (hd : 0 < r.den)
    : r.value * r.den = r.num := by
  have hd' : (r.den : ℚ) ≠ 0 := by exact_mod_cast hd.ne'
  exact div_mul_cancel₀ _ hd'

/-- A power of either sign is a quotient of two powers of which one is trivial. -/
theorem zpow_eq_div {base : ℚ} (hb : base ≠ 0) (power : Int)
    : base ^ power = base ^ power.toNat / base ^ (-power).toNat := by
  rw [← zpow_natCast, ← zpow_natCast, ← zpow_sub₀ hb]
  congr 1
  omega

theorem value_scale (r : Ratio) {base : Nat} (hb : base ≠ 0) (power : Int)
    : (r.scale base power).value = r.value * (base : ℚ) ^ power := by
  have hb' : (base : ℚ) ≠ 0 := by exact_mod_cast hb
  rw [zpow_eq_div hb']
  simp only [value, scale, Nat.pow_eq, Nat.cast_mul, Nat.cast_pow]
  rw [mul_div_mul_comm]

theorem den_scale_pos {r : Ratio} (hd : 0 < r.den) {base : Nat} (hb : base ≠ 0) (power : Int)
    : 0 < (r.scale base power).den :=
  Nat.mul_pos hd (Nat.pow_pos (Nat.pos_of_ne_zero hb))

-----------------------------------------------------------------------------------------
-- Rounding
-----------------------------------------------------------------------------------------

/-- A whole number within half a unit is the nearest one if a tie has made it even. -/
theorem roundDiv_eq {num den n : Nat} (above : 2 * num ≤ 2 * (n * den) + den)
    (below : 2 * (n * den) ≤ 2 * num + den)
    (tie : 2 * num = 2 * (n * den) + den ∨ 2 * (n * den) = 2 * num + den → n % 2 = 0)
    (hd : 0 < den)
    : roundDiv num den = n := by
  have hn := Nat.div_add_mod num den
  have hr := Nat.mod_lt num hd
  have hlow : num / den ≤ n := by
    by_contra hlt
    have hm : (n + 1) * den ≤ den * (num / den) := by
      rw [Nat.mul_comm den]
      exact Nat.mul_le_mul_right den (by omega)
    rw [Nat.add_mul] at hm
    omega
  have hhigh : n ≤ num / den + 1 := by
    by_contra hlt
    have hm : (num / den + 2) * den ≤ n * den := Nat.mul_le_mul_right den (by omega)
    rw [Nat.add_mul, Nat.mul_comm (num / den)] at hm
    omega
  rcases (by omega : n = num / den ∨ n = num / den + 1) with he | he
  · rw [he, Nat.mul_comm (num / den)] at above below tie
    simp only [roundDiv]
    split_ifs <;> omega
  · rw [he, Nat.add_mul, Nat.mul_comm (num / den)] at above below tie
    simp only [roundDiv]
    split_ifs <;> omega

/-- The rounded quotient is the whole number within half a unit, an even one if half a unit is
what is between them. -/
theorem round_eq {r : Ratio} (hd : 0 < r.den) {n : Nat} (near : |r.value - n| ≤ 1 / 2)
    (tie : |r.value - n| = 1 / 2 → n % 2 = 0)
    : r.round = n := by
  have hd' : (0 : ℚ) < r.den := by exact_mod_cast hd
  have hv := value_mul_den hd
  obtain ⟨hl, hu⟩ := abs_le.mp near
  have hsum : ((2 * r.num : Nat) : ℚ) = 2 * r.value * r.den := by
    push_cast
    rw [← hv]
    ring
  apply roundDiv_eq _ _ _ hd
  · have : ((2 * r.num : Nat) : ℚ) ≤ ((2 * (n * r.den) + r.den : Nat) : ℚ) := by
      rw [hsum]
      push_cast
      nlinarith
    exact_mod_cast this
  · have : ((2 * (n * r.den) : Nat) : ℚ) ≤ ((2 * r.num + r.den : Nat) : ℚ) := by
      rw [Nat.cast_add, hsum]
      push_cast
      nlinarith
    exact_mod_cast this
  · intro half
    apply tie
    rcases half with he | he
    · have hq : ((2 * r.num : Nat) : ℚ) = ((2 * (n * r.den) + r.den : Nat) : ℚ) := by rw [he]
      rw [hsum] at hq
      push_cast at hq
      have : r.value - n = 1 / 2 := by
        apply mul_right_cancel₀ hd'.ne'
        linarith
      rw [this]
      norm_num
    · have hq : ((2 * (n * r.den) : Nat) : ℚ) = ((2 * r.num + r.den : Nat) : ℚ) := by rw [he]
      rw [Nat.cast_add, hsum] at hq
      push_cast at hq
      have : r.value - n = -(1 / 2) := by
        apply mul_right_cancel₀ hd'.ne'
        linarith
      rw [this]
      norm_num

/-- The rounded quotient is at most half a unit away. -/
theorem abs_value_sub_round_le {r : Ratio} (hd : 0 < r.den)
    : |r.value - r.round| ≤ 1 / 2 := by
  have hd' : (0 : ℚ) < r.den := by exact_mod_cast hd
  have hv := value_mul_den hd
  have ha : ((2 * (r.round * r.den) : Nat) : ℚ) ≤ ((2 * r.num + r.den : Nat) : ℚ) := by
    exact_mod_cast two_mul_roundDiv_le r.num hd
  have hb : ((2 * r.num : Nat) : ℚ) ≤ ((2 * (r.round * r.den) + r.den : Nat) : ℚ) := by
    exact_mod_cast le_two_mul_roundDiv r.num hd
  push_cast at ha hb
  rw [← hv] at ha hb
  rw [abs_le]
  constructor
  · refine le_of_mul_le_mul_right ?_ hd'
    linarith
  · refine le_of_mul_le_mul_right ?_ hd'
    linarith

/-- Half a unit away, rounding has found an even number. -/
theorem round_even_of_tie {r : Ratio} (hd : 0 < r.den) (tie : |r.value - r.round| = 1 / 2)
    : r.round % 2 = 0 := by
  by_contra hodd
  -- the even number on the other side would have been found
  have hother : ∃ n : Nat, n % 2 = 0 ∧ |r.value - n| = 1 / 2 := by
    rcases abs_eq (by norm_num : (0 : ℚ) ≤ 1 / 2) |>.mp tie with h | h
    · refine ⟨r.round + 1, by omega, ?_⟩
      have : r.value - ((r.round + 1 : Nat) : ℚ) = -(1 / 2) := by
        push_cast
        linarith
      rw [this]
      norm_num
    · obtain ⟨n, hn⟩ : ∃ n, r.round = n + 1 := ⟨r.round - 1, by omega⟩
      refine ⟨n, by omega, ?_⟩
      have : r.value - (n : ℚ) = 1 / 2 := by
        rw [hn] at h
        push_cast at h
        linarith
      rw [this]
      norm_num
  obtain ⟨n, heven, hn⟩ := hother
  rw [round_eq hd hn.le fun _ => heven] at hodd
  exact hodd heven

-----------------------------------------------------------------------------------------
-- The exponent of the first digit
-----------------------------------------------------------------------------------------

/-- A positive quotient lies between the powers at its exponent and at the next one. -/
theorem exponent_bounds {r : Ratio} (hn : 0 < r.num) (hd : 0 < r.den) {base : Nat} (hb : 2 ≤ base)
    : (base : ℚ) ^ r.exponent base ≤ r.value
      ∧ r.value < (base : ℚ) ^ (r.exponent base + 1) := by
  have hd' : (0 : ℚ) < r.den := by exact_mod_cast hd
  unfold exponent value
  split_ifs with hle
  · have hq : 0 < r.num / r.den := Nat.div_pos hle hd
    obtain ⟨j, hj, hlow, hhigh⟩ := exists_digitCount_eq hb hq
    have he : ((j + 1 : Nat) : Int) - 1 = (j : Int) := by omega
    rw [hj, he, zpow_natCast, ← Int.natCast_succ, zpow_natCast]
    rw [le_div_iff₀ hd', div_lt_iff₀ hd']
    constructor
    · have : base ^ j * r.den ≤ r.num := (Nat.le_div_iff_mul_le hd).mp hlow
      exact_mod_cast this
    · have : r.num < base ^ (j + 1) * r.den := (Nat.div_lt_iff_lt_mul hd).mp hhigh
      exact_mod_cast this
  · have hq : 0 < (r.den - 1) / r.num := Nat.div_pos (by omega) hn
    obtain ⟨j, hj, hlow, hhigh⟩ := exists_digitCount_eq hb hq
    have he : -((j + 1 : Nat) : Int) + 1 = -(j : Int) := by omega
    have hbp : ∀ i : Nat, (0 : ℚ) < (base : ℚ) ^ i := fun i => by
      have : 0 < base ^ i := Nat.pow_pos (by omega)
      exact_mod_cast this
    rw [hj, he, zpow_neg, zpow_neg, zpow_natCast, zpow_natCast]
    rw [le_div_iff₀ hd', div_lt_iff₀ hd', inv_mul_le_iff₀ (hbp _), lt_inv_mul_iff₀ (hbp _)]
    constructor
    · have : r.den - 1 < base ^ (j + 1) * r.num := (Nat.div_lt_iff_lt_mul hn).mp hhigh
      have : r.den ≤ base ^ (j + 1) * r.num := by omega
      exact_mod_cast this
    · have : base ^ j * r.num ≤ r.den - 1 := (Nat.le_div_iff_mul_le hn).mp hlow
      have : base ^ j * r.num < r.den := by omega
      exact_mod_cast this

/-- The exponent is the only one whose powers enclose the quotient. -/
theorem exponent_eq {r : Ratio} (hn : 0 < r.num) (hd : 0 < r.den) {base : Nat} (hb : 2 ≤ base)
    {e : Int} (low : (base : ℚ) ^ e ≤ r.value) (high : r.value < (base : ℚ) ^ (e + 1))
    : r.exponent base = e := by
  have hb' : (1 : ℚ) < base := by exact_mod_cast hb
  obtain ⟨hl, hh⟩ := exponent_bounds hn hd hb
  have h₁ := (zpow_lt_zpow_iff_right₀ hb').mp (lt_of_le_of_lt hl high)
  have h₂ := (zpow_lt_zpow_iff_right₀ hb').mp (lt_of_le_of_lt low hh)
  omega

theorem exponent_lt {r : Ratio} (hn : 0 < r.num) (hd : 0 < r.den) {base : Nat} (hb : 2 ≤ base)
    {e : Int} (high : r.value < (base : ℚ) ^ e)
    : r.exponent base < e := by
  have hb' : (1 : ℚ) < base := by exact_mod_cast hb
  exact (zpow_lt_zpow_iff_right₀ hb').mp (lt_of_le_of_lt (exponent_bounds hn hd hb).1 high)

end Ratio

end BenchLog.Decimal
