import BenchLog.Proofs.Decimal.Unpacked

/-! The intervals of the finite values cover the numbers between the least and the greatest one.
Such a number rounds to a significand, lies in its interval and is half a unit away at most; the
code of the significand stands for it.
-/

open Float.Model Float.Model.UnpackedFloat

namespace BenchLog.Decimal

section

variable {m : Nat} {e : Int} {v : ℚ}

-----------------------------------------------------------------------------------------
-- Half a unit around a significand
-----------------------------------------------------------------------------------------

theorem Interval.low_eq_of_not_first (positive : 0 < m)
    (h : ¬(m = normalBound ∧ minExponent < e))
    : ((ofSignificand m e).low : ℚ) = 4 * m - 2 := by
  simp only [ofSignificand, if_neg h]
  rw [Nat.cast_sub (by omega)]
  push_cast
  ring

/-- What is half a unit away at most, a quarter where the binade begins, lies in the interval if a
tie has made the significand even. -/
theorem Interval.contains_of_near (positive : 0 < m) (near : |m * 2 ^ e - v| ≤ 2 ^ e / 2)
    (even : |m * 2 ^ e - v| = 2 ^ e / 2 → m % 2 = 0)
    (first : m = normalBound → minExponent < e → m * 2 ^ e - 2 ^ e / 4 ≤ v)
    : (ofSignificand m e).Contains e v := by
  have hu : (0 : ℚ) < 2 ^ (e - 2) := two_zpow_pos _
  rw [← four_mul_quarter] at near even first
  obtain ⟨hbelow, habove⟩ := abs_le.mp near
  unfold Contains
  rw [high_ofSignificand]
  by_cases hfirst : m = normalBound ∧ minExponent < e
  · have hclosed : (ofSignificand m e).closed = true := by
      rw [hfirst.1]
      rfl
    have hlow := mul_le_mul_of_nonneg_right (low_ofSignificand e positive).2 hu.le
    rw [if_pos hclosed]
    constructor
    · linarith [first hfirst.1 hfirst.2]
    · linarith
  · rw [low_eq_of_not_first positive hfirst]
    split_ifs with hclosed
    · constructor <;> linarith
    · have hodd : ¬ m % 2 = 0 := fun heven => hclosed (beq_iff_eq.mpr heven)
      obtain ⟨hbelow, habove⟩ := abs_lt.mp (lt_of_le_of_ne near fun h => hodd (even h))
      constructor <;> linarith

/-- What lies in the interval is half a unit away at most. -/
theorem Interval.Contains.abs_sub_le (h : (ofSignificand m e).Contains e v) (positive : 0 < m)
    : |m * 2 ^ e - v| ≤ 2 ^ e / 2 := by
  have hu : (0 : ℚ) < 2 ^ (e - 2) := two_zpow_pos _
  obtain ⟨hlow, hhigh⟩ := h.bounds
  rw [high_ofSignificand] at hhigh
  have hbelow := mul_le_mul_of_nonneg_right (low_ofSignificand e positive).1 hu.le
  rw [← four_mul_quarter, abs_le]
  constructor <;> linarith

-----------------------------------------------------------------------------------------
-- The significand of a number
-----------------------------------------------------------------------------------------

theorem normalBound_mul_zpow (t : Int)
    : (normalBound : ℚ) * 2 ^ t = 2 ^ (t + 52) := by
  rw [zpow_add₀ (by norm_num), mul_comm]
  norm_num [normalBound]

theorem exists_ratio_value_eq (hv : 0 < v)
    : ∃ r : Ratio, 0 < r.num ∧ 0 < r.den ∧ r.value = v := by
  have hnum := Rat.num_pos.mpr hv
  refine ⟨⟨v.num.toNat, v.den⟩, by simpa using hnum, v.den_pos, ?_⟩
  have hcast : ((v.num.toNat : Int) : ℚ) = v.num := by rw [Int.toNat_of_nonneg hnum.le]
  rw [Ratio.value, ← Int.cast_natCast v.num.toNat, hcast, Rat.num_div_den]

/-- A positive number rounds to a significand at the exponent of its binade or at the least one,
of two that are equally near to the even one. -/
theorem exists_rounded_even (hv : 0 < v)
    : ∃ n t, Rounded v n t ∧ (|n * 2 ^ t - v| = 2 ^ t / 2 → n % 2 = 0) := by
  obtain ⟨r, hn, hd, rfl⟩ := exists_ratio_value_eq hv
  obtain ⟨hlow, hhigh⟩ := Ratio.exponent_bounds hn hd (le_refl 2)
  rw [Nat.cast_ofNat] at hlow hhigh
  obtain ⟨t, ht⟩ : ∃ t, t = max (r.exponent 2 - 52) minExponent := ⟨_, rfl⟩
  have hu : (0 : ℚ) < 2 ^ t := two_zpow_pos t
  have hscaled := Ratio.den_scale_pos hd (by decide : 2 ≠ 0) (-t)
  have hvalue : (r.scale 2 (-t)).value * 2 ^ t = r.value := by
    rw [Ratio.value_scale r (by decide), zpow_neg, Nat.cast_ofNat, inv_mul_cancel_right₀ hu.ne']
  have hnear := Ratio.abs_value_sub_round_le hscaled
  have heven := Ratio.round_even_of_tie hscaled
  have hdistance
      : |(r.scale 2 (-t)).round * 2 ^ t - r.value| =
          |(r.scale 2 (-t)).value - (r.scale 2 (-t)).round| * 2 ^ t := by
    rw [← hvalue, ← sub_mul, abs_mul, abs_of_pos hu, abs_sub_comm]
  refine ⟨(r.scale 2 (-t)).round, t, ⟨ht ▸ le_max_right _ _, fun hlt => ?_, ?_, ?_, ?_⟩, ?_⟩
  · have hbinade : t + 52 = r.exponent 2 := by omega
    rwa [normalBound_mul_zpow, hbinade]
  · have hbinade : (2 : ℚ) ^ (r.exponent 2 + 1) ≤ 2 ^ (t + 52 + 1) :=
      zpow_le_zpow_right₀ (by norm_num) (by omega)
    rw [mul_assoc, normalBound_mul_zpow, mul_comm, ← zpow_add_one₀ (by norm_num)]
    exact lt_of_lt_of_le hhigh hbinade
  · rw [hdistance]
    linarith [mul_le_mul_of_nonneg_right hnear hu.le]
  · intro htiny
    rw [← hvalue, ← mul_one_div, mul_comm (2 ^ t)] at htiny
    have hhalf := le_of_mul_le_mul_right htiny hu
    have hnonneg : 0 ≤ (r.scale 2 (-t)).value :=
      div_nonneg (Nat.cast_nonneg _) (Nat.cast_nonneg _)
    apply Ratio.round_eq hscaled _ fun _ => rfl
    rwa [Nat.cast_zero, sub_zero, abs_of_nonneg hnonneg]
  · intro htie
    rw [hdistance, ← mul_one_div, mul_comm (2 ^ t)] at htie
    exact heven (mul_right_cancel₀ hu.ne' htie)

/-- A rounded significand of a number up to the greatest one is that of a finite value, or twice
the least normal one and that of the next binade. -/
theorem Rounded.exists_contains {n : Nat} {t : Int} (h : Rounded v n t) (positive : 0 < n)
    (even : |n * 2 ^ t - v| = 2 ^ t / 2 → n % 2 = 0)
    (high : v ≤ (2 * normalBound - 1) * greatestUnit)
    : ∃ m e, IsFinite m e ∧ (Interval.ofSignificand m e).Contains e v := by
  have hu := two_zpow_pos t
  have hnormal : (1 : ℚ) ≤ normalBound := by norm_num [normalBound]
  by_cases hlt : n < 2 * normalBound
  · have hgreatest : t ≤ 971 := by
      by_contra hgt
      have hunit := two_mul_greatestUnit_le (lt_of_not_ge hgt)
      have hlow := h.normal (by simp only [minExponent]; omega)
      linarith [mul_le_mul_of_nonneg_left hunit (by linarith : (0 : ℚ) ≤ normalBound),
        greatestUnit_pos]
    refine ⟨n, t, ⟨positive, hlt, h.least, hgreatest, h.bound_le⟩, ?_⟩
    refine Interval.contains_of_near positive h.near even fun hfirst hleast => ?_
    rw [hfirst]
    linarith [h.normal hleast]
  · obtain rfl : n = 2 * normalBound := le_antisymm h.le_bound (le_of_not_gt hlt)
    obtain ⟨hbelow, habove⟩ := abs_le.mp h.near
    have hbounded := h.bounded
    have hleast := h.least
    push_cast at hbelow habove
    have hgreatest : t + 1 ≤ 971 := by
      by_contra hgt
      have hunit : greatestUnit ≤ 2 ^ t := zpow_le_zpow_right₀ (by norm_num) (by omega)
      have hlow := mul_le_mul_of_nonneg_left hunit
        (by linarith : (0 : ℚ) ≤ 2 * normalBound - 1 / 2)
      linarith [greatestUnit_pos]
    refine ⟨normalBound, t + 1, ⟨by decide, by decide, by omega, hgreatest, fun _ => le_refl _⟩, ?_⟩
    have hnext : (2 : ℚ) ^ (t + 1) = 2 * 2 ^ t := by
      rw [zpow_add_one₀ (by norm_num), mul_comm]
    apply Interval.contains_of_near (by decide) _ fun _ => rfl
    · intro _ _
      rw [hnext]
      linarith
    · rw [hnext, abs_le]
      constructor <;> linarith

/-- Every number above half the least value and up to the greatest one lies in the interval of a
finite value. -/
theorem exists_contains (low : 2 ^ minExponent / 2 < v)
    (high : v ≤ (2 * normalBound - 1) * greatestUnit)
    : ∃ m e, IsFinite m e ∧ (Interval.ofSignificand m e).Contains e v := by
  have hv : 0 < v := lt_trans (half_pos (two_zpow_pos _)) low
  obtain ⟨n, t, hrounded, heven⟩ := exists_rounded_even hv
  exact hrounded.exists_contains (hrounded.pos_iff.mpr low) heven high

-----------------------------------------------------------------------------------------
-- The value of a significand
-----------------------------------------------------------------------------------------

/-- The code of a significand stands for it. -/
theorem ofFloat_floatOfCode (negative : Bool) (finite : IsFinite m e)
    : Number.ofFloat (floatOfCode negative (codeOf m e)) = .finite negative m e := by
  obtain ⟨s, hs⟩ : ∃ s : Sign, (s == .negative) = negative := by
    cases negative with
    | true => exact ⟨.negative, rfl⟩
    | false => exact ⟨.positive, rfl⟩
  obtain ⟨x, hx⟩ : ∃ x : Float, x.toModel = Float.Model.pack (.finite s m e finite.positive) :=
    ⟨⟨_⟩, rfl⟩
  have hcanonical : Canonical (.finite s m e finite.positive) := finite
  have hnumber : Number.ofFloat x = .finite negative m e := by
    rw [ofFloat_eq_ofUnpacked, hx, unpack_pack hcanonical, Number.ofUnpacked, hs]
  rw [← (eq_of_ofFloat_finite hnumber).1, hnumber]

end

end BenchLog.Decimal
