import BenchLog.Proofs.DataSet.Workspace
import BenchLog.Proofs.Decimal.Quotient

/-! Runs that never sum up.
Whatever is done to data sets by the other policies, every point that is found in one of them has
the time and the output of one of the observations that were put in, and its time lies between its
extremes: merging chooses one of two observations as a whole, and the mean of one observation is its
time.
-/

namespace BenchLog

open DataSet Decimal

-----------------------------------------------------------------------------------------
-- Points that stand for one observation
-----------------------------------------------------------------------------------------

namespace Point

/-- A single observation of a time that is a number. -/
structure Measured (p : Point) : Prop where
  count : p.count = 1
  minTime : p.minTime = p.time
  maxTime : p.maxTime = p.time
  number : p.time.isNaN = false

instance : DecidablePred Measured := fun p =>
  decidable_of_iff
    (p.count = 1 ∧ p.minTime = p.time ∧ p.maxTime = p.time ∧ p.time.isNaN = false)
    ⟨fun ⟨count, minTime, maxTime, number⟩ => ⟨count, minTime, maxTime, number⟩,
      fun ⟨count, minTime, maxTime, number⟩ => ⟨count, minTime, maxTime, number⟩⟩

/-- The point has the time and the output of one of the observations with its key, and its time
lies between its extremes. -/
structure Whole (seen : List Point) (p : Point) : Prop where
  count : p.count = 1
  numeric : p.Numeric
  low : place p.minTime ≤ place p.time
  high : place p.time ≤ place p.maxTime
  observed : ∃ o ∈ seen,
    o.isValid = true ∧ o.key = p.key ∧ o.time = p.time ∧ o.outputData = p.outputData

variable {seen : List Point} {p q : Point}

theorem Measured.whole (h : p.Measured) (hvalid : p.isValid = true) (hmem : p ∈ seen)
    : p.Whole seen := by
  obtain ⟨hcount, hmin, hmax, hnumber⟩ := h
  refine ⟨hcount, ⟨⟨?_, ?_⟩, hnumber⟩, ?_, ?_, p, hmem, hvalid, rfl, rfl, rfl⟩
  · rw [hmin, hnumber]
  · rw [hmax, hnumber]
  · rw [hmin]
  · rw [hmax]

theorem place_minTime_absorb (policy : Policy) (hp : p.Ranged) (hq : q.Ranged)
    : place (p.absorb policy q).minTime = min (place p.minTime) (place q.minTime) := by
  rw [minTime_absorb]
  exact rank_choose (lt_iff_place_lt hq.minTime hp.minTime)

theorem place_maxTime_absorb (policy : Policy) (hp : p.Ranged) (hq : q.Ranged)
    : place (p.absorb policy q).maxTime = max (place p.maxTime) (place q.maxTime) := by
  rw [maxTime_absorb]
  exact rank_choose_max (lt_iff_place_lt hp.maxTime hq.maxTime)

/-- A point with the observation of another one and extremes around those of it. -/
theorem Whole.of_observation_eq (h : p.Whole seen) (hkey : q.key = p.key)
    (hobservation : q.observation = p.observation) (hranged : q.Ranged)
    (hmin : place q.minTime ≤ place p.minTime) (hmax : place p.maxTime ≤ place q.maxTime)
    : q.Whole seen := by
  simp only [observation, Prod.mk.injEq] at hobservation
  obtain ⟨htime, houtput, hcount⟩ := hobservation
  refine ⟨hcount.trans h.count, ⟨hranged, ?_⟩, ?_, ?_, ?_⟩
  · rw [htime, h.numeric.time]
  · rw [htime]
    exact hmin.trans h.low
  · rw [htime]
    exact h.high.trans hmax
  · rw [hkey, htime, houtput]
    exact h.observed

/-- A policy other than the sum keeps one of two observations as a whole. -/
theorem keeps_whole {policy : Policy} (hpolicy : policy ≠ .sum)
    : Keeps (Whole seen) policy := by
  intro p q hkey hp hq
  have hranged : (p.absorb policy q).Ranged := hp.numeric.toRanged.absorb hq.numeric.toRanged
  have hmin := place_minTime_absorb policy hp.numeric.toRanged hq.numeric.toRanged
  have hmax := place_maxTime_absorb policy hp.numeric.toRanged hq.numeric.toRanged
  have hsame := key_absorb policy p q
  rcases observation_absorb_cases policy p q with h | h | h
  · exact hp.of_observation_eq hsame h hranged (hmin ▸ min_le_left _ _) (hmax ▸ le_max_left _ _)
  · exact hq.of_observation_eq (hsame.trans hkey) h hranged (hmin ▸ min_le_right _ _)
      (hmax ▸ le_max_right _ _)
  · exact absurd h hpolicy

/-- The mean of one observation is its time. -/
theorem averaged_of_count (h : p.count = 1)
    : p.averaged = p := by
  rw [averaged, h, if_pos one_pos, div_ofNat_one]
  cases p
  cases h
  rfl

theorem trimmed_of_count (h : p.count = 1)
    : p.trimmed = { p with minTime := p.time, maxTime := p.time } := by
  have hmean : p.trimmedAverage = p.time := by rw [trimmedAverage, h]
  rw [trimmed, h, if_pos one_pos, hmean]

theorem Whole.averaged (h : p.Whole seen)
    : p.averaged.Whole seen :=
  (averaged_of_count h.count).symm ▸ h

theorem Whole.trimmed (h : p.Whole seen)
    : p.trimmed.Whole seen := by
  rw [trimmed_of_count h.count]
  have hnumber := h.numeric.time
  exact ⟨h.count, ⟨⟨hnumber, hnumber⟩, hnumber⟩, le_refl _, le_refl _, h.observed⟩

end Point

-----------------------------------------------------------------------------------------
-- Runs
-----------------------------------------------------------------------------------------

namespace Workspace

/-- A step that does not sum up keeps points whole. -/
theorem Step.preserves_whole {s : Step} {seen : List Point}
    (hpolicy : ∀ policy ∈ s.policy?, policy ≠ .sum)
    (hmeasured : ∀ o ∈ s.observations, o.Measured ∧ o ∈ seen)
    : s.Preserves (Point.Whole seen) where
  keeps policy h := Point.keeps_whole (hpolicy policy h)
  averaged _ h := h.averaged
  trimmed _ h := h.trimmed
  observed o ho hvalid := (hmeasured o ho).1.whole hvalid (hmeasured o ho).2

/-- After whatever operations on data sets under policies other than the sum, every point counts
one, its time lies between its extremes, and one of the observations put in has its key, its time
and its output. -/
theorem run_whole {steps : List Step} (hpolicy : ∀ s ∈ steps, ∀ policy ∈ s.policy?, policy ≠ .sum)
    (hmeasured : ∀ s ∈ steps, ∀ o ∈ s.observations, o.Measured)
    : ∀ name set, (run steps empty).value name = some set → ∀ k p, set.get? k = some p →
        p.count = 1
        ∧ p.minTime ≤ p.time
        ∧ p.time ≤ p.maxTime
        ∧ ∃ s ∈ steps, ∃ o ∈ s.observations,
            o.isValid = true ∧ o.key = k ∧ o.time = p.time ∧ o.outputData = p.outputData := by
  intro name set hset k p hget
  have hpreserves
      : ∀ s ∈ steps, s.Preserves (Point.Whole (steps.flatMap Step.observations)) := by
    intro s hs
    refine Step.preserves_whole (hpolicy s hs) fun o ho => ⟨hmeasured s hs o ho, ?_⟩
    exact List.mem_flatMap.mpr ⟨s, hs, ho⟩
  have hsound := (holds_empty.run_of_preserves hpreserves).1 hset
  have hmem := KeyMap.mem_of_get? hget
  have hwhole := hsound.all hmem
  have hnumeric := hwhole.numeric
  obtain ⟨o, ho, hvalid, hkey, htime, houtput⟩ := hwhole.observed
  obtain ⟨s, hs, ho⟩ := List.mem_flatMap.mp ho
  refine ⟨hwhole.count, ?_, ?_, s, hs, o, ho, hvalid, ?_, htime, houtput⟩
  · exact (le_iff_place_le hnumeric.minTime hnumeric.time).mpr hwhole.low
  · exact (le_iff_place_le hnumeric.time hnumeric.maxTime).mpr hwhole.high
  · rw [hkey, hsound.keyed hmem]

/-- The key of both data sets is merged by all four policies, and averaged in between. -/
def wholeRun : List Step :=
  [.collect "a" "left" .min
      [.single "fib" 2 4 "in" "slow", .single "fib" 2 1 "in" "fast", .single "" 2 0 "in" ""],
    .read "b" ⟨.warn, "right", false, Log.defaultLabels⟩
      "CILKPUB_DATA_POINT, 2, 2, fib, [in], [x]\nCILKPUB_DATA_POINT, 9, 2, fib, [in], [y]\n",
    .average "b",
    .merge "a" .max "b",
    .insert "b" .last (.single "ack" 1 3 "" "z"),
    .trim "a",
    .merge "b" .last "a"]

theorem run_whole_wholeRun
    : ∃ set p,
        (run wholeRun empty).value "b" = some set
        ∧ set.get? ⟨"fib", "in", 2⟩ = some p
        ∧ (p.time, p.outputData, p.minTime, p.maxTime) = (2, "x", 2, 9)
        ∧ p.count = 1
        ∧ p.minTime ≤ p.time
        ∧ p.time ≤ p.maxTime
        ∧ ∃ s ∈ wholeRun, ∃ o ∈ s.observations,
            o.key = ⟨"fib", "in", 2⟩ ∧ o.time = p.time ∧ o.outputData = p.outputData := by
  have hpolicy : ∀ s ∈ wholeRun, ∀ policy ∈ s.policy?, policy ≠ .sum := by decide
  have hmeasured : ∀ s ∈ wholeRun, ∀ o ∈ s.observations, o.Measured := by
    have hparts : ∀ s ∈ wholeRun, ∀ o ∈ s.observations,
        o.count = 1 ∧ o.minTime = o.time ∧ o.maxTime = o.time ∧ o.time.isNaN = false := by
      decide +kernel
    intro s hs o ho
    obtain ⟨hcount, hmin, hmax, hnumber⟩ := hparts s hs o ho
    exact ⟨hcount, hmin, hmax, hnumber⟩
  have hparts
      : (((run wholeRun empty).value "b").bind (·.get? ⟨"fib", "in", 2⟩)).map
            (fun p => (p.time, p.outputData, p.minTime, p.maxTime)) =
          some (2, "x", 2, 9) := by
    decide +kernel
  obtain ⟨p, hfound, hp⟩ := Option.map_eq_some_iff.mp hparts
  obtain ⟨set, hset, hget⟩ := Option.bind_eq_some_iff.mp hfound
  obtain ⟨hcount, hlow, hhigh, s, hs, o, ho, -, hobserved⟩ :=
    run_whole hpolicy hmeasured "b" set hset _ p hget
  exact ⟨set, p, hset, hget, hp, hcount, hlow, hhigh, s, hs, o, ho, hobserved⟩

end Workspace

end BenchLog
