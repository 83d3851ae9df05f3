import BenchLog.Proofs.DataSet.Sound
import BenchLog.Proofs.Decimal.Quotient
import BenchLog.Proofs.Point.Association

/-! When the trimmed average of positive observations is positive.
The total of two observations has to exceed the larger one, and that of more observations both
extremes by what may be lost in the division. Sums of all observations do, unless the extremes are
so far apart that the smaller observations are lost in the sum.
-/

namespace BenchLog.Point

open DataSet Decimal

/-- Something was observed, the time and the extremes are positive, and the extremes are finite. -/
structure Positive (p : Point) : Prop where
  count : 1 ≤ p.count
  time : 0 < p.time
  minTime : 0 < p.minTime ∧ p.minTime.isFinite = true
  maxTime : 0 < p.maxTime ∧ p.maxTime.isFinite = true

/-- The total is more than the extremes that are taken from it, and enough to be divided. -/
def Outweighs (p : Point) : Prop :=
  match p.count with
  | 0 | 1 => True
  | 2 => p.maxTime < p.time
  | n + 3 => (n + 1 : Nat) * (2 ^ minExponent / 2) < value (p.time - (p.minTime + p.maxTime))

variable {p q : Point}

/-- The trimmed average of positive observations is positive exactly if they outweigh their
extremes, by the cases of their count. -/
theorem Positive.zero_lt_trimmedAverage_iff (h : p.Positive) (hfinite : p.time.isFinite = true)
    (hcount : p.count < 2 ^ 32)
    : 0 < p.trimmedAverage ↔ p.Outweighs := by
  unfold trimmedAverage Outweighs
  generalize p.count = count at hcount ⊢
  rcases count with _ | _ | _ | n
  · exact iff_of_true h.time trivial
  · exact iff_of_true h.time trivial
  · exact zero_lt_sub_iff hfinite h.time h.maxTime.2 h.maxTime.1
  · have hextremes := (zero_lt_add h.minTime.1 h.maxTime.1).1
    have hn : n + 1 < 2 * normalBound := by
      simp only [normalBound]
      omega
    exact zero_lt_div_ofNat_iff n.succ_pos hn
      (unpack_sub_ne_infinity hfinite h.time hextremes)

-----------------------------------------------------------------------------------------
-- What merging keeps
-----------------------------------------------------------------------------------------

theorem Positive.absorb (policy : Policy) (hp : p.Positive) (hq : q.Positive)
    : (p.absorb policy q).Positive := by
  refine ⟨?_, ?_, ?_, ?_⟩
  · have hpc := hp.count
    have hqc := hq.count
    rcases count_absorb policy p q with h | h | h <;> omega
  · by_cases hsum : policy = .sum
    · subst hsum
      exact (zero_lt_add hp.time hq.time).1
    · rcases @time_absorb policy p q hsum with h | h
      · exact h ▸ hp.time
      · exact h ▸ hq.time
  · rw [minTime_absorb]
    exact choose_of_both (P := fun x : Float => 0 < x ∧ x.isFinite = true) hp.minTime hq.minTime
  · rw [maxTime_absorb]
    exact choose_of_both (P := fun x : Float => 0 < x ∧ x.isFinite = true) hp.maxTime hq.maxTime

/-- A positive observation that no policy but the sum has merged with another one. -/
def Observed (p : Point) : Prop :=
  p.Positive ∧ p.count = 1

theorem keeps_observed {policy : Policy} (hpolicy : policy ≠ .sum)
    : Keeps Observed policy := by
  intro p q _ hp hq
  exact ⟨hp.1.absorb policy hq.1, count_absorb_eq_one hpolicy hp.2 hq.2⟩

theorem Observed.outweighs (h : p.Observed)
    : p.Outweighs := by
  rw [Outweighs, h.2]
  trivial

-----------------------------------------------------------------------------------------
-- Sums of observations
-----------------------------------------------------------------------------------------

/-- The relative error of an addition. -/
def additionError : ℚ :=
  2 ^ (-53 : Int)

theorem additionError_eq
    : additionError = 1 / 2 ^ 53 := by
  norm_num [additionError]

theorem additionError_nonneg
    : 0 ≤ additionError :=
  (two_zpow_pos _).le

/-- The total of observations is at least the largest one and the smallest one for every other
one, up to an error for every addition, unless it is infinite. -/
structure Summed (p : Point) : Prop extends Positive p where
  order : value p.minTime ≤ value p.maxTime
  total : p.time.isFinite = true →
    (1 - (p.count - 1) * additionError) * (value p.maxTime + (p.count - 1) * value p.minTime)
      ≤ value p.time

theorem Positive.zero_lt_minTime (h : p.Positive)
    : 0 < value p.minTime :=
  (zero_lt_iff_of_isFinite h.minTime.2).mp h.minTime.1

theorem value_choose_lt {x y : Float} (hx : x.isFinite = true) (hy : y.isFinite = true)
    : value (choose (· < ·) x y) = min (value x) (value y) :=
  rank_choose (lt_iff_value_lt hy hx)

theorem value_choose_gt {x y : Float} (hx : x.isFinite = true) (hy : y.isFinite = true)
    : value (choose (· > ·) x y) = max (value x) (value y) :=
  rank_choose_max (lt_iff_value_lt hx hy)

/-- The extremes of two points together are among the extremes of both. -/
theorem Positive.extremes_absorb (policy : Policy) (hp : p.Positive) (hq : q.Positive)
    : value (p.absorb policy q).minTime = min (value p.minTime) (value q.minTime)
      ∧ value (p.absorb policy q).maxTime = max (value p.maxTime) (value q.maxTime) := by
  rw [minTime_absorb, maxTime_absorb]
  exact ⟨value_choose_lt hp.minTime.2 hq.minTime.2, value_choose_gt hp.maxTime.2 hq.maxTime.2⟩

/-- A sum of two positive times is off by an addition error at most. -/
theorem le_value_add {x y : Float} (hx : 0 < x) (hy : 0 < y) (h : (x + y).isFinite = true)
    : (1 - additionError) * (value x + value y) ≤ value (x + y)
      ∧ value (x + y) ≤ (1 + additionError) * (value x + value y) := by
  obtain ⟨hxf, hyf⟩ := (zero_lt_add hx hy).2 h
  obtain ⟨⟨k, hk⟩, -⟩ := exists_multiple_add_sub x y
  have herror := (roundsTo_add hxf hx hyf hy).abs_value_sub_le h hk
  rw [abs_le] at herror
  constructor
  · rw [additionError]
    linarith [herror.1]
  · rw [additionError]
    linarith [herror.2]

section

variable {δ c d l m h k s t u : ℚ}

/-- Both the larger of two maxima and the smaller of two minima for every other observation are
part of both totals. -/
theorem max_add_mul_min_le (hc : 1 ≤ c) (hd : 1 ≤ d) (hlh : l ≤ h) (hmk : m ≤ k)
    : max h k + (c + d - 1) * min l m ≤ h + (c - 1) * l + (k + (d - 1) * m) := by
  have hl := mul_le_mul_of_nonneg_left (min_le_left l m) (sub_nonneg.mpr hc)
  have hm := mul_le_mul_of_nonneg_left (min_le_right l m) (sub_nonneg.mpr hd)
  rcases le_total h k with hle | hle
  · rw [max_eq_right hle]
    linarith [min_le_left l m]
  · rw [max_eq_left hle]
    linarith [min_le_right l m]

/-- The errors of two totals and that of their addition are at most one for every addition. -/
theorem one_sub_mul_le (hδ : 0 ≤ δ) (hc : 1 ≤ c) (hd : 1 ≤ d)
    : 1 - (c + d - 1) * δ ≤ (1 - δ) * (1 - (c - 1) * δ) := by
  have hproduct : 0 ≤ (c - 1) * (δ * δ) := mul_nonneg (sub_nonneg.mpr hc) (mul_nonneg hδ hδ)
  have hrest : 0 ≤ (d - 1) * δ := mul_nonneg (sub_nonneg.mpr hd) hδ
  linarith

/-- Lower bounds of two totals are one of their rounded sum. -/
theorem total_le (hδ : 0 ≤ δ) (hδ1 : δ ≤ 1) (hc : 1 ≤ c) (hd : 1 ≤ d) (hl : 0 ≤ l) (hm : 0 ≤ m)
    (hlh : l ≤ h) (hmk : m ≤ k) (hs : (1 - (c - 1) * δ) * (h + (c - 1) * l) ≤ s)
    (ht : (1 - (d - 1) * δ) * (k + (d - 1) * m) ≤ t) (hu : (1 - δ) * (s + t) ≤ u) (hu0 : 0 ≤ u)
    : (1 - (c + d - 1) * δ) * (max h k + (c + d - 1) * min l m) ≤ u := by
  have hfirst : 0 ≤ h + (c - 1) * l :=
    add_nonneg (hl.trans hlh) (mul_nonneg (sub_nonneg.mpr hc) hl)
  have hsecond : 0 ≤ k + (d - 1) * m :=
    add_nonneg (hm.trans hmk) (mul_nonneg (sub_nonneg.mpr hd) hm)
  rcases le_total 0 (1 - (c + d - 1) * δ) with hsign | hsign
  · have hswap : 1 - (c + d - 1) * δ ≤ (1 - δ) * (1 - (d - 1) * δ) := by
      rw [add_comm c d]
      exact one_sub_mul_le hδ hd hc
    calc
      (1 - (c + d - 1) * δ) * (max h k + (c + d - 1) * min l m) ≤
          (1 - (c + d - 1) * δ) * (h + (c - 1) * l + (k + (d - 1) * m)) :=
        mul_le_mul_of_nonneg_left (max_add_mul_min_le hc hd hlh hmk) hsign
      _ = (1 - (c + d - 1) * δ) * (h + (c - 1) * l)
            + (1 - (c + d - 1) * δ) * (k + (d - 1) * m) := mul_add _ _ _
      _ ≤ (1 - δ) * (1 - (c - 1) * δ) * (h + (c - 1) * l)
            + (1 - δ) * (1 - (d - 1) * δ) * (k + (d - 1) * m) :=
        add_le_add (mul_le_mul_of_nonneg_right (one_sub_mul_le hδ hc hd) hfirst)
          (mul_le_mul_of_nonneg_right hswap hsecond)
      _ = (1 - δ) * ((1 - (c - 1) * δ) * (h + (c - 1) * l)
            + (1 - (d - 1) * δ) * (k + (d - 1) * m)) := by ring
      _ ≤ (1 - δ) * (s + t) :=
        mul_le_mul_of_nonneg_left (add_le_add hs ht) (sub_nonneg.mpr hδ1)
      _ ≤ u := hu
  · have hmax : 0 ≤ max h k + (c + d - 1) * min l m :=
      add_nonneg ((hl.trans hlh).trans (le_max_left h k))
        (mul_nonneg (by linarith) (le_min hl hm))
    exact (mul_nonpos_of_nonpos_of_nonneg hsign hmax).trans hu0

end

/-- The sum of two sums is one, by the errors of the additions. -/
theorem keeps_summed
    : Keeps Summed .sum := by
  intro p q _ hp hq
  obtain ⟨hmin, hmax⟩ := hp.toPositive.extremes_absorb .sum hq.toPositive
  have hpositive := hp.toPositive.absorb .sum hq.toPositive
  refine ⟨hpositive, ?_, fun hfinite => ?_⟩
  · rw [hmin, hmax]
    exact (min_le_left _ _).trans (hp.order.trans (le_max_left _ _))
  · obtain ⟨hpf, hqf⟩ := (zero_lt_add hp.time hq.time).2 hfinite
    have hone : additionError ≤ 1 := by norm_num [additionError]
    have hpc : (1 : ℚ) ≤ p.count := by exact_mod_cast hp.count
    have hqc : (1 : ℚ) ≤ q.count := by exact_mod_cast hq.count
    have hcount : ((p.absorb .sum q).count : ℚ) = p.count + q.count := Nat.cast_add _ _
    rw [hmin, hmax, hcount]
    exact total_le additionError_nonneg hone hpc hqc hp.zero_lt_minTime.le hq.zero_lt_minTime.le
      hp.order hq.order (hp.total hpf) (hq.total hqf) (le_value_add hp.time hq.time hfinite).1
      ((zero_lt_iff_of_isFinite hfinite).mp hpositive.time).le

-----------------------------------------------------------------------------------------
-- Observations that are not lost in their sum
-----------------------------------------------------------------------------------------

/-- The extremes are so close to each other that no observation is lost in the sum of all. -/
def Balanced (p : Point) : Prop :=
  p.count * value p.maxTime ≤ 2 ^ 48 * value p.minTime

instance (p : Point) : Decidable p.Balanced :=
  inferInstanceAs (Decidable (_ ≤ _))

/-- What balanced extremes leave of a total is a good part of the smallest observations. -/
theorem add_extremes_le {n a b t : ℚ} (hn : 1 ≤ n) (ha : 0 ≤ a) (hab : a ≤ b)
    (hbalanced : (n + 2) * b ≤ 2 ^ 48 * a)
    (ht : (1 - (n + 1) * additionError) * (b + (n + 1) * a) ≤ t)
    : 3 / 4 * (n * a) + (1 + additionError) * (a + b) ≤ t := by
  have hsquare : ((n + 1) ^ 2 + 1) * a ≤ (n + 2) ^ 2 * b :=
    mul_le_mul (by linarith) hab ha (sq_nonneg _)
  have hall : (n + 1) * (b + (n + 1) * a) + (a + b) ≤ n * (2 ^ 50 * a) := by
    calc
      (n + 1) * (b + (n + 1) * a) + (a + b) = (n + 2) * b + ((n + 1) ^ 2 + 1) * a := by ring
      _ ≤ (n + 2) * b + (n + 2) ^ 2 * b := by linarith
      _ = (n + 3) * ((n + 2) * b) := by ring
      _ ≤ (n + 3) * (2 ^ 48 * a) := mul_le_mul_of_nonneg_left hbalanced (by linarith)
      _ ≤ 4 * n * (2 ^ 48 * a) := mul_le_mul_of_nonneg_right (by linarith) (by positivity)
      _ = n * (2 ^ 50 * a) := by ring
  have herror := mul_le_mul_of_nonneg_left hall additionError_nonneg
  have hscale : additionError * (n * (2 ^ 50 * a)) = n * a / 8 := by
    norm_num [additionError]
    ring
  have hna : 0 ≤ n * a := mul_nonneg (by linarith) ha
  linarith

theorem value_sub_ge {x y : Float} (hx : x.isFinite = true) (hxpos : 0 < x)
    (hy : y.isFinite = true) (hypos : 0 < y) (hlt : value y < value x)
    : (1 - additionError) * (value x - value y) ≤ value (x - y) := by
  obtain ⟨-, k, hk⟩ := exists_multiple_add_sub x y
  have hrounds := (roundsTo_sub hx hxpos hy hypos).1 hlt
  have hvalue := (zero_lt_iff_of_isFinite hy).mp hypos
  have hfinite := hrounds.isFinite (by linarith : value x - value y ≤ value x)
  have herror := (abs_le.mp (hrounds.abs_value_sub_le hfinite hk)).1
  rw [additionError]
  linarith

/-- What is left of a total stays positive when it is rounded and divided. -/
theorem Positive.lt_value_sub (h : p.Positive) (hfinite : p.time.isFinite = true) {n : ℚ}
    (hn : 1 ≤ n)
    (hgap : 3 / 4 * (n * value p.minTime)
        + (1 + additionError) * (value p.minTime + value p.maxTime) ≤ value p.time)
    : n * (2 ^ minExponent / 2) < value (p.time - (p.minTime + p.maxTime)) := by
  have hmin := h.zero_lt_minTime
  have hmax := (zero_lt_iff_of_isFinite h.maxTime.2).mp h.maxTime.1
  have hna : 0 < n * value p.minTime := mul_pos (by linarith) hmin
  have hsum : value p.minTime + value p.maxTime ≤ value p.time := by
    rw [additionError_eq] at hgap
    linarith
  have hwf : (p.minTime + p.maxTime).isFinite = true :=
    (roundsTo_add h.minTime.2 h.minTime.1 h.maxTime.2 h.maxTime.1).isFinite hsum
  have hwpos := (zero_lt_add h.minTime.1 h.maxTime.1).1
  have hw := (le_value_add h.minTime.1 h.maxTime.1 hwf).2
  have hleft : 3 / 4 * (n * value p.minTime) ≤ value p.time - value (p.minTime + p.maxTime) := by
    linarith
  have hlt : value (p.minTime + p.maxTime) < value p.time := by linarith
  have hle := value_sub_ge hfinite h.time hwf hwpos hlt
  have hunit := mul_le_mul_of_nonneg_left (two_zpow_le_value h.minTime.2 h.minTime.1)
    (by linarith : 0 ≤ n)
  rw [additionError_eq] at hle
  linarith

/-- Balanced sums of observations outweigh their extremes, by the cases of their count. -/
theorem Summed.outweighs (h : p.Summed) (hfinite : p.time.isFinite = true) (hb : p.Balanced)
    : p.Outweighs := by
  have htotal := h.total hfinite
  have hpos := h.zero_lt_minTime
  have horder := h.order
  rw [Balanced] at hb
  rw [Outweighs]
  generalize p.count = count at htotal hb ⊢
  rcases count with _ | _ | _ | n
  · trivial
  · trivial
  · rw [additionError_eq] at htotal
    push_cast at htotal hb
    apply (lt_iff_value_lt h.maxTime.2 hfinite).mpr
    linarith
  · have hn : (1 : ℚ) ≤ (n + 1 : Nat) := by exact_mod_cast n.succ_pos
    have hcount : ((n + 1 + 1 + 1 : Nat) : ℚ) = (n + 1 : Nat) + 2 := by
      push_cast
      ring
    have hpred : ((n + 1 + 1 + 1 : Nat) : ℚ) - 1 = (n + 1 : Nat) + 1 := by
      rw [hcount]
      ring
    rw [hcount] at hb
    rw [hpred] at htotal
    have hgap := add_extremes_le hn hpos.le horder hb htotal
    exact h.toPositive.lt_value_sub hfinite hn hgap

-----------------------------------------------------------------------------------------
-- Largest observations
-----------------------------------------------------------------------------------------

/-- A single positive observation that no other one exceeds. -/
structure Peak (p : Point) : Prop extends Positive p where
  single : p.count = 1
  finite : p.time.isFinite = true
  order : value p.minTime ≤ value p.maxTime
  peak : value p.maxTime ≤ value p.time

theorem peak_single {benchmark inputParams outputData : String} {processors : UInt32}
    {time : Float} (hpos : 0 < time) (hfinite : time.isFinite = true)
    : (single benchmark processors time inputParams outputData).Peak :=
  ⟨⟨le_refl 1, hpos, ⟨hpos, hfinite⟩, ⟨hpos, hfinite⟩⟩, rfl, hfinite, le_refl _, le_refl _⟩

theorem Peak.observed (h : p.Peak)
    : p.Observed :=
  ⟨h.toPositive, h.single⟩

theorem Peak.summed (h : p.Peak)
    : p.Summed := by
  refine ⟨h.toPositive, h.order, fun _ => ?_⟩
  rw [h.single]
  simpa using h.peak

/-- The larger of two largest observations is not exceeded by the extremes of both. -/
theorem keeps_peak
    : Keeps Peak .max := by
  intro p q hkey hp hq
  obtain ⟨hmin, hmax⟩ := hp.toPositive.extremes_absorb .max hq.toPositive
  have hobserved :=
    keeps_observed (by decide : Policy.max ≠ .sum) hkey hp.observed hq.observed
  have htime : (p.absorb .max q).time = choose (· > ·) p.time q.time := by
    simp only [absorb, choose]
    split
    · rfl
    · rfl
  have hfinite : (p.absorb .max q).time.isFinite = true := by
    rw [htime]
    exact choose_of_both (P := fun x : Float => x.isFinite = true) hp.finite hq.finite
  refine ⟨hobserved.1, hobserved.2, hfinite, ?_, ?_⟩
  · rw [hmin, hmax]
    exact (min_le_left _ _).trans (hp.order.trans (le_max_left _ _))
  · rw [hmax, htime, value_choose_gt hp.finite hq.finite]
    exact max_le_max hp.peak hq.peak

end BenchLog.Point
