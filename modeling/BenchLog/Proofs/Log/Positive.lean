import BenchLog.Proofs.Log.Grouped
import BenchLog.Proofs.Point.TrimmedAverage
import BenchLog.Proofs.Report.Compared

/-! Logs all of whose observations are positive.
Read through groups of patterns, such a log has points with positive trimmed averages exactly
where its observations outweigh their extremes, and two logs in which all do are compared without
suspicion.
-/

namespace BenchLog

open DataSet

-----------------------------------------------------------------------------------------
-- Positive observations
-----------------------------------------------------------------------------------------

namespace Log

/-- Every observation that is read from the text is positive and finite; the totals stay finite,
and the counts in a word. -/
structure Positive (settings : ParseSettings) (path : Path) (text : String) : Prop where
  observed : ∀ p ∈ observations settings.filters text, 0 < p.time ∧ p.time.isFinite = true
  bounded : ∀ p ∈ (readGroups settings path text).value.points.values,
    p.time.isFinite = true ∧ p.count < 2 ^ 32

instance (settings : ParseSettings) (path : Path) (text : String)
    : Decidable (Positive settings path text) :=
  decidable_of_iff
    ((∀ p ∈ observations settings.filters text, 0 < p.time ∧ p.time.isFinite = true)
      ∧ ∀ p ∈ (readGroups settings path text).value.points.values,
          p.time.isFinite = true ∧ p.count < 2 ^ 32)
    ⟨fun h => ⟨h.1, h.2⟩, fun h => ⟨h.observed, h.bounded⟩⟩

variable {settings : ParseSettings} {path : Path} {text : String}

theorem Positive.peak (h : Positive settings path text) (p : Point)
    (hp : p ∈ observations settings.filters text)
    : p.Peak := by
  obtain ⟨hpos, hfinite⟩ := h.observed p hp
  obtain ⟨line, hline⟩ := exists_line_of_mem_observations hp
  obtain ⟨benchmark, processors, time, inputParams, outputData, rfl⟩ :=
    Recognition.exists_single_of_point? hline
  exact Point.peak_single hpos hfinite

theorem Positive.zero_lt_trimmedAverage_iff (h : Positive settings path text) {p : Point}
    (hp : p ∈ (readGroups settings path text).value.points.values)
    : 0 < p.trimmedAverage ↔ p.Outweighs := by
  have keeps : ∀ policy, Keeps Point.Positive policy :=
    fun policy _ _ _ hp hq => hp.absorb policy hq
  have hsound : (readGroups settings path text).value.Sound Point.Positive :=
    sound_readGroups (keeps _) (fun p hp => (h.peak p hp).toPositive) (keeps _) id
  obtain ⟨hfinite, hcount⟩ := h.bounded p hp
  exact (hsound.of_mem_values hp).zero_lt_trimmedAverage_iff hfinite hcount

/-- Without a sum every point is a single observation. -/
theorem Positive.outweighs_of_single (h : Positive settings path text)
    (hpolicy : settings.policy ≠ .sum) (hfilters : settings.filters.length ≤ 1) {p : Point}
    (hp : p ∈ (readGroups settings path text).value.points.values)
    : p.Outweighs := by
  have hsound : (readGroups settings path text).value.Sound Point.Observed :=
    sound_readGroups_of_length_le (Point.keeps_observed hpolicy)
      (fun p hp => (h.peak p hp).observed) hfilters
  exact (hsound.of_mem_values hp).outweighs

/-- Sums of all observations, or of the largest one of each group, outweigh balanced extremes. -/
theorem Positive.outweighs_of_balanced (h : Positive settings path text)
    (hpolicy : settings.policy = .sum ∨ settings.policy = .max) {p : Point}
    (hp : p ∈ (readGroups settings path text).value.points.values) (hb : p.Balanced)
    : p.Outweighs := by
  have hsound : (readGroups settings path text).value.Sound Point.Summed := by
    rcases hpolicy with hsum | hmax
    · exact sound_readGroups (hsum ▸ Point.keeps_summed) (fun p hp => (h.peak p hp).summed)
        Point.keeps_summed id
    · exact sound_readGroups (hmax ▸ Point.keeps_peak) h.peak Point.keeps_summed
        fun hp => hp.summed
  exact (hsound.of_mem_values hp).outweighs (h.bounded p hp).1 hb

end Log

-----------------------------------------------------------------------------------------
-- Comparing positive logs
-----------------------------------------------------------------------------------------

/-- The points are single observations, or sums of observations that are not far apart. -/
def Log.Comparable (settings : ParseSettings) (points : List Point) : Prop :=
  settings.policy ≠ .sum ∧ settings.filters.length ≤ 1
  ∨ (settings.policy = .sum ∨ settings.policy = .max) ∧ ∀ p ∈ points, p.Balanced

/-- The trimmed averages of two positive logs are positive exactly where the observations outweigh
their extremes, which comparable ones do; and no entry of their comparison is suspicious, or
reported to be, exactly if those of all shared keys do. -/
theorem Report.compare_of_positive {settings : ParseSettings} {base new : Path}
    {baseText newText : String} (hbase : Log.Positive settings base baseText)
    (hnew : Log.Positive settings new newText) (thresholds : Thresholds)
    : let old := (Log.readGroups settings base baseText).value
      let recent := (Log.readGroups settings new newText).value
      let report := (compare old recent thresholds).value
      let points := old.points.values ++ recent.points.values
      let outweighing := ∀ k p q, old.get? k = some p → (k, q) ∈ recent.points →
        p.Outweighs ∧ q.Outweighs
      (∀ p ∈ points, 0 < p.trimmedAverage ↔ p.Outweighs)
      ∧ (Log.Comparable settings points → ∀ p ∈ points, p.Outweighs)
      ∧ ((∀ e ∈ report.entries, e.suspicious = false) ↔ outweighing)
      ∧ ((∀ label old recent, .suspiciousTimes label old recent ∉ report.diagnostics) ↔
          outweighing) := by
  intro old recent report points outweighing
  have hiff : ∀ p ∈ points, 0 < p.trimmedAverage ↔ p.Outweighs := by
    intro p hp
    rcases List.mem_append.mp hp with hold | hrecent
    · exact hbase.zero_lt_trimmedAverage_iff hold
    · exact hnew.zero_lt_trimmedAverage_iff hrecent
  have hshared : (∀ e ∈ report.entries, e.suspicious = false) ↔ outweighing := by
    apply Report.unsuspicious_compare_iff.trans
    apply forall_congr' fun k => forall_congr' fun p => forall_congr' fun q => ?_
    apply forall_congr' fun hold => forall_congr' fun hrecent => ?_
    have hp : p ∈ old.points.values := List.mem_map_of_mem (KeyMap.mem_of_get? hold)
    have hq : q ∈ recent.points.values := List.mem_map_of_mem hrecent
    exact and_congr (hbase.zero_lt_trimmedAverage_iff hp) (hnew.zero_lt_trimmedAverage_iff hq)
  refine ⟨hiff, ?_, hshared, ?_⟩
  · rintro (⟨hpolicy, hfilters⟩ | ⟨hpolicy, hbalanced⟩) p hp
    · rcases List.mem_append.mp hp with hold | hrecent
      · exact hbase.outweighs_of_single hpolicy hfilters hold
      · exact hnew.outweighs_of_single hpolicy hfilters hrecent
    · rcases List.mem_append.mp hp with hold | hrecent
      · exact hbase.outweighs_of_balanced hpolicy hold (hbalanced p hp)
      · exact hnew.outweighs_of_balanced hpolicy hrecent (hbalanced p hp)
  · exact Report.suspiciousTimes_not_mem_compare_iff.trans hshared

def Log.olderText : String :=
  "CILKPUB_DATA_POINT, 10, 2, fib, [in], []\nCILKPUB_DATA_POINT, 3, 2, fib, [in], []\n"

def Log.newerText : String :=
  "CILKPUB_DATA_POINT, 4, 2, fib, [in], []\nCILKPUB_DATA_POINT, 9, 2, fib, [in], []\n"

/-- Under the settings that apply if no others are given, the observations are summed up. -/
theorem Report.compare_of_positive_summed
    : ∃ old recent,
        old = (Log.readGroups {} ⟨"older.log"⟩ Log.olderText).value
        ∧ recent = (Log.readGroups {} ⟨"newer.log"⟩ Log.newerText).value
        ∧ Log.Positive {} ⟨"older.log"⟩ Log.olderText
        ∧ Log.Positive {} ⟨"newer.log"⟩ Log.newerText
        ∧ (∀ p ∈ old.points.values ++ recent.points.values, 0 < p.trimmedAverage)
        ∧ (compare old recent .standard).value.entries.map (·.suspicious) = [false] := by
  have hold : Log.Positive {} ⟨"older.log"⟩ Log.olderText := by decide +kernel
  have hnew : Log.Positive {} ⟨"newer.log"⟩ Log.newerText := by decide +kernel
  obtain ⟨hiff, hcomparable, -, -⟩ := compare_of_positive hold hnew .standard
  have houtweighs := hcomparable (Or.inr ⟨Or.inl rfl, by decide +kernel⟩)
  refine ⟨_, _, rfl, rfl, hold, hnew, fun p hp => (hiff p hp).mpr (houtweighs p hp), ?_⟩
  decide +kernel

/-- Both groups keep every line of the log. -/
def Log.smallestTwice : ParseSettings where
  policy := .min
  filters := [["fib"], [pointTag]]

/-- The smallest observation of either group is part of the total, and the largest one, which both
groups have discarded, is taken from it. -/
theorem Report.not_compare_of_positive_discarded
    : ∃ set,
        set = (Log.readGroups Log.smallestTwice ⟨"older.log"⟩ Log.olderText).value
        ∧ Log.Positive Log.smallestTwice ⟨"older.log"⟩ Log.olderText
        ∧ set.points.values.map Point.trimmedAverage = [-4]
        ∧ ¬ (∀ p ∈ set.points.values, 0 < p.trimmedAverage)
        ∧ ¬ (∀ e ∈ (compare set set .standard).value.entries, e.suspicious = false)
        ∧ ¬ ∀ label old recent,
            .suspiciousTimes label old recent ∉ (compare set set .standard).value.diagnostics := by
  refine ⟨_, rfl, by decide +kernel, by decide +kernel, by decide +kernel, by decide +kernel, ?_⟩
  rw [suspiciousTimes_not_mem_compare_iff]
  decide +kernel

end BenchLog
