import BenchLog.Point.Merge
import BenchLog.Proofs.Decimal.Order

/-! Merging points one after the other or in groups.
Points whose times and extremes are numbers merge into the same point however they are grouped; the
times of summed points are added and so depend on the grouping, and nothing else does.
-/

namespace BenchLog

open Decimal

-----------------------------------------------------------------------------------------
-- Choosing one of two
-----------------------------------------------------------------------------------------

/-- The second of two if it precedes the first. -/
def choose {α : Type} (precedes : α → α → Prop) [DecidableRel precedes] (a b : α) : α :=
  if precedes b a then b else a

/-- Of three that are ranked, the first of the least ones is chosen in either grouping. -/
theorem choose_assoc {α β : Type} [LinearOrder β] {precedes : α → α → Prop}
    [DecidableRel precedes] {rank : α → β} {P : α → Prop}
    (hrank : ∀ {a b}, P a → P b → (precedes a b ↔ rank a < rank b)) {a b c : α} (ha : P a)
    (hb : P b) (hc : P c)
    : choose precedes (choose precedes a b) c = choose precedes a (choose precedes b c) := by
  unfold choose
  by_cases hba : rank b < rank a
  · rw [if_pos ((hrank hb ha).mpr hba)]
    by_cases hcb : rank c < rank b
    · rw [if_pos ((hrank hc hb).mpr hcb), if_pos ((hrank hc ha).mpr (hcb.trans hba))]
    · rw [if_neg fun h => hcb ((hrank hc hb).mp h), if_pos ((hrank hb ha).mpr hba)]
  · rw [if_neg fun h => hba ((hrank hb ha).mp h)]
    by_cases hcb : rank c < rank b
    · rw [if_pos ((hrank hc hb).mpr hcb)]
    · have hca : ¬ rank c < rank a := fun h => hcb (lt_of_lt_of_le h (not_lt.mp hba))
      rw [if_neg fun h => hcb ((hrank hc hb).mp h), if_neg fun h => hca ((hrank hc ha).mp h),
        if_neg fun h => hba ((hrank hb ha).mp h)]

/-- By the smaller of times that are numbers. -/
theorem choose_lt_assoc {α : Type} (time : α → Float) {a b c : α} (ha : (time a).isNaN = false)
    (hb : (time b).isNaN = false) (hc : (time c).isNaN = false)
    : choose (time · < time ·) (choose (time · < time ·) a b) c =
        choose (time · < time ·) a (choose (time · < time ·) b c) := by
  have hrank : ∀ {a b : α}, (time a).isNaN = false → (time b).isNaN = false →
      (time a < time b ↔ place (time a) < place (time b)) :=
    lt_iff_place_lt
  exact choose_assoc hrank ha hb hc

/-- By the larger of times that are numbers. -/
theorem choose_gt_assoc {α : Type} (time : α → Float) {a b c : α} (ha : (time a).isNaN = false)
    (hb : (time b).isNaN = false) (hc : (time c).isNaN = false)
    : choose (time · > time ·) (choose (time · > time ·) a b) c =
        choose (time · > time ·) a (choose (time · > time ·) b c) := by
  have hrank : ∀ {a b : α}, (time a).isNaN = false → (time b).isNaN = false →
      (time a > time b ↔
        OrderDual.toDual (place (time a)) < OrderDual.toDual (place (time b))) :=
    fun ha hb => lt_iff_place_lt hb ha
  exact choose_assoc hrank ha hb hc

section

variable {α β : Type} [LinearOrder β] {precedes : α → α → Prop} [DecidableRel precedes]
  {rank : α → β} {a b : α}

theorem rank_choose (h : precedes b a ↔ rank b < rank a)
    : rank (choose precedes a b) = min (rank a) (rank b) := by
  rw [choose]
  split
  · next hlt => exact (min_eq_right (h.mp hlt).le).symm
  · next hlt => exact (min_eq_left (not_lt.mp fun hrank => hlt (h.mpr hrank))).symm

theorem rank_choose_max (h : precedes b a ↔ rank a < rank b)
    : rank (choose precedes a b) = max (rank a) (rank b) := by
  rw [choose]
  split
  · next hlt => exact (max_eq_right (h.mp hlt).le).symm
  · next hlt => exact (max_eq_left (not_lt.mp fun hrank => hlt (h.mpr hrank))).symm

end

theorem choose_eq_or {α : Type} (precedes : α → α → Prop) [DecidableRel precedes] (a b : α)
    : choose precedes a b = a ∨ choose precedes a b = b := by
  unfold choose
  split
  · exact Or.inr rfl
  · exact Or.inl rfl

theorem choose_of_both {α : Type} {P : α → Prop} {precedes : α → α → Prop}
    [DecidableRel precedes] {a b : α} (ha : P a) (hb : P b)
    : P (choose precedes a b) := by
  rcases choose_eq_or precedes a b with h | h
  · rw [h]
    exact ha
  · rw [h]
    exact hb

namespace Point

-----------------------------------------------------------------------------------------
-- The parts of merged points
-----------------------------------------------------------------------------------------

/-- The extremes are numbers. -/
structure Ranged (p : Point) : Prop where
  minTime : p.minTime.isNaN = false
  maxTime : p.maxTime.isNaN = false

/-- The time and the extremes are numbers. -/
structure Numeric (p : Point) : Prop extends Ranged p where
  time : p.time.isNaN = false

/-- What was observed: a time with the output and the count that belong to it. -/
def observation (p : Point) : Float × String × Nat :=
  (p.time, p.outputData, p.count)

/-- A point is its key, its observation and its extremes. -/
theorem eq_of_parts {p q : Point} (key : p.key = q.key) (observation : p.observation = q.observation)
    (minTime : p.minTime = q.minTime) (maxTime : p.maxTime = q.maxTime)
    : p = q := by
  cases p
  cases q
  simp_all [Point.key, Point.observation]

variable (policy : Policy) (p q r : Point)

theorem minTime_absorb
    : (p.absorb policy q).minTime = choose (· < ·) p.minTime q.minTime := by
  cases policy with
  | sum | last | warn => rfl
  | min | max =>
      simp only [absorb]
      split <;> rfl

theorem maxTime_absorb
    : (p.absorb policy q).maxTime = choose (· > ·) p.maxTime q.maxTime := by
  cases policy with
  | sum | last | warn => rfl
  | min | max =>
      simp only [absorb]
      split <;> rfl

/-- The observation that a policy keeps of two, the sum apart. -/
def keptObservation : Policy → Float × String × Nat → Float × String × Nat → Float × String × Nat
  | .min => choose fun o o' => o.1 < o'.1
  | .max => choose fun o o' => o.1 > o'.1
  | .last => fun _ o => o
  | _ => fun o _ => o

variable {policy p q r}

theorem observation_absorb (h : policy ≠ .sum)
    : (p.absorb policy q).observation = keptObservation policy p.observation q.observation := by
  cases policy with
  | sum => exact absurd rfl h
  | last | warn => rfl
  | min =>
      by_cases h : q.time < p.time
      · simp [absorb, keptObservation, choose, observation, observe, h]
      · simp [absorb, keptObservation, choose, observation, widen, h]
  | max =>
      by_cases h : q.time > p.time
      · simp [absorb, keptObservation, choose, observation, observe, h]
      · simp [absorb, keptObservation, choose, observation, widen, h]

theorem keptObservation_eq_or (policy : Policy) (o o' : Float × String × Nat)
    : keptObservation policy o o' = o ∨ keptObservation policy o o' = o' := by
  cases policy with
  | sum | warn => exact Or.inl rfl
  | last => exact Or.inr rfl
  | min => exact choose_eq_or (fun o o' => o.1 < o'.1) o o'
  | max => exact choose_eq_or (fun o o' => o.1 > o'.1) o o'

/-- Merging keeps one of two observations, or sums them. -/
theorem observation_absorb_cases (policy : Policy) (p q : Point)
    : (p.absorb policy q).observation = p.observation
      ∨ (p.absorb policy q).observation = q.observation
      ∨ policy = .sum := by
  by_cases h : policy = .sum
  · exact Or.inr (Or.inr h)
  · rw [observation_absorb h]
    rcases keptObservation_eq_or policy p.observation q.observation with hp | hq
    · exact Or.inl hp
    · exact Or.inr (Or.inl hq)

theorem count_absorb (policy : Policy) (p q : Point)
    : (p.absorb policy q).count = p.count
      ∨ (p.absorb policy q).count = q.count
      ∨ (p.absorb policy q).count = p.count + q.count := by
  rcases observation_absorb_cases policy p q with h | h | rfl
  · exact Or.inl (congrArg (·.2.2) h)
  · exact Or.inr (Or.inl (congrArg (·.2.2) h))
  · exact Or.inr (Or.inr rfl)

theorem count_absorb_eq_one (h : policy ≠ .sum) (hp : p.count = 1) (hq : q.count = 1)
    : (p.absorb policy q).count = 1 := by
  rcases observation_absorb_cases policy p q with hkept | hkept | hsum
  · exact (congrArg (·.2.2) hkept).trans hp
  · exact (congrArg (·.2.2) hkept).trans hq
  · exact absurd hsum h

/-- A sum counts one more for every point that stands for one observation. -/
theorem count_foldl_absorb_sum {points : List Point} (h : ∀ q ∈ points, q.count = 1)
    : (points.foldl (absorb .sum) p).count = p.count + points.length := by
  induction points generalizing p with
  | nil => rfl
  | cons q points ih =>
      obtain ⟨hq, hpoints⟩ := List.forall_mem_cons.mp h
      have hcount : (p.absorb .sum q).count = p.count + 1 := congrArg (p.count + ·) hq
      rw [List.foldl_cons, ih hpoints, hcount, List.length_cons, Nat.add_assoc, Nat.add_comm 1]

/-- A policy other than the sum keeps the time of one of the points. -/
theorem time_absorb (h : policy ≠ .sum)
    : (p.absorb policy q).time = p.time ∨ (p.absorb policy q).time = q.time := by
  rcases observation_absorb_cases policy p q with hp | hq | hsum
  · exact Or.inl (congrArg Prod.fst hp)
  · exact Or.inr (congrArg Prod.fst hq)
  · exact absurd hsum h

theorem Ranged.absorb (hp : p.Ranged) (hq : q.Ranged)
    : (p.absorb policy q).Ranged := by
  constructor
  · rw [minTime_absorb]
    exact choose_of_both (P := (Float.isNaN · = false)) hp.minTime hq.minTime
  · rw [maxTime_absorb]
    exact choose_of_both (P := (Float.isNaN · = false)) hp.maxTime hq.maxTime

theorem Numeric.absorb (hpolicy : policy ≠ .sum) (hp : p.Numeric) (hq : q.Numeric)
    : (p.absorb policy q).Numeric := by
  refine ⟨hp.toRanged.absorb hq.toRanged, ?_⟩
  rcases @time_absorb policy p q hpolicy with h | h
  · rw [h, hp.time]
  · rw [h, hq.time]

-----------------------------------------------------------------------------------------
-- Grouping
-----------------------------------------------------------------------------------------

theorem minTime_absorb_assoc (hp : p.Ranged) (hq : q.Ranged) (hr : r.Ranged)
    : ((p.absorb policy q).absorb policy r).minTime =
        (p.absorb policy (q.absorb policy r)).minTime := by
  simp only [minTime_absorb]
  exact choose_lt_assoc id hp.minTime hq.minTime hr.minTime

theorem maxTime_absorb_assoc (hp : p.Ranged) (hq : q.Ranged) (hr : r.Ranged)
    : ((p.absorb policy q).absorb policy r).maxTime =
        (p.absorb policy (q.absorb policy r)).maxTime := by
  simp only [maxTime_absorb]
  exact choose_gt_assoc id hp.maxTime hq.maxTime hr.maxTime

theorem keptObservation_assoc {o o' o'' : Float × String × Nat} (h : o.1.isNaN = false)
    (h' : o'.1.isNaN = false) (h'' : o''.1.isNaN = false)
    : keptObservation policy (keptObservation policy o o') o'' =
        keptObservation policy o (keptObservation policy o' o'') := by
  cases policy with
  | sum | last | warn => rfl
  | min => exact choose_lt_assoc Prod.fst h h' h''
  | max => exact choose_gt_assoc Prod.fst h h' h''

/-- Under every policy but the sum, points merge into the same point in either grouping. -/
theorem absorb_assoc (hpolicy : policy ≠ .sum) (hp : p.Numeric) (hq : q.Numeric)
    (hr : r.Numeric)
    : (p.absorb policy q).absorb policy r = p.absorb policy (q.absorb policy r) := by
  apply eq_of_parts
  · rw [key_absorb, key_absorb, key_absorb]
  · simp only [observation_absorb hpolicy]
    exact keptObservation_assoc hp.time hq.time hr.time
  · exact minTime_absorb_assoc hp.toRanged hq.toRanged hr.toRanged
  · exact maxTime_absorb_assoc hp.toRanged hq.toRanged hr.toRanged

theorem joinOutputs_empty (a : String)
    : joinOutputs a "" = a := by
  simp [joinOutputs]

theorem empty_joinOutputs (b : String)
    : joinOutputs "" b = b := by
  simp [joinOutputs]

theorem joinOutputs_of_ne {a b : String} (ha : a ≠ "") (hb : b ≠ "")
    : joinOutputs a b = a ++ ", " ++ b :=
  if_pos ⟨ha, hb⟩

/-- Empty outputs leave no trace in a joined text, and the others stand in their order. -/
theorem joinOutputs_assoc (a b c : String)
    : joinOutputs (joinOutputs a b) c = joinOutputs a (joinOutputs b c) := by
  rcases eq_or_ne a "" with rfl | ha
  · rw [empty_joinOutputs, empty_joinOutputs]
  · rcases eq_or_ne b "" with rfl | hb
    · rw [joinOutputs_empty, empty_joinOutputs]
    · rcases eq_or_ne c "" with rfl | hc
      · rw [joinOutputs_empty, joinOutputs_empty]
      · have hjoined : ∀ {a b : String}, b ≠ "" → a ++ ", " ++ b ≠ "" := by
          intro a b hb he
          exact hb (String.append_eq_empty_iff.mp he).2
        rw [joinOutputs_of_ne ha hb, joinOutputs_of_ne hb hc,
          joinOutputs_of_ne (hjoined hb) hc, joinOutputs_of_ne ha (hjoined hc)]
        simp only [String.append_assoc]

/-- A point without its time. -/
def untimed (p : Point) : Point :=
  { p with time := 0 }

theorem untimed_eq_iff
    : p.untimed = q.untimed ↔
        p.key = q.key
        ∧ p.outputData = q.outputData
        ∧ p.count = q.count
        ∧ p.minTime = q.minTime
        ∧ p.maxTime = q.maxTime := by
  cases p
  cases q
  simp only [untimed, Point.key, Point.mk.injEq, Key.mk.injEq]
  tauto

/-- Summed points are the same up to their times in either grouping. -/
theorem untimed_absorb_assoc (hp : p.Ranged) (hq : q.Ranged) (hr : r.Ranged)
    : ((p.absorb .sum q).absorb .sum r).untimed = (p.absorb .sum (q.absorb .sum r)).untimed := by
  refine untimed_eq_iff.mpr ⟨?_, ?_, ?_, ?_, ?_⟩
  · rw [key_absorb, key_absorb, key_absorb]
  · exact joinOutputs_assoc p.outputData q.outputData r.outputData
  · exact Nat.add_assoc p.count q.count r.count
  · exact minTime_absorb_assoc hp hq hr
  · exact maxTime_absorb_assoc hp hq hr

theorem untimed_absorb_congr (p : Point) (h : q.untimed = r.untimed)
    : (p.absorb .sum q).untimed = (p.absorb .sum r).untimed := by
  obtain ⟨-, houtput, hcount, hmin, hmax⟩ := untimed_eq_iff.mp h
  refine untimed_eq_iff.mpr ⟨?_, ?_, ?_, ?_, ?_⟩
  · rw [key_absorb, key_absorb]
  · exact congrArg (joinOutputs p.outputData) houtput
  · exact congrArg (p.count + ·) hcount
  · rw [minTime_absorb, minTime_absorb, hmin]
  · rw [maxTime_absorb, maxTime_absorb, hmax]

end Point

end BenchLog
