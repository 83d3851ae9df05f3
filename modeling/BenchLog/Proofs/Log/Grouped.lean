import BenchLog.Log.Groups
import BenchLog.Proofs.Log.Collected

/-! Logs that are read through groups of patterns.
Every group is a pass of its own over the text, and what a pass makes of its points is summed up
with what the others make of theirs.
-/

namespace BenchLog

open DataSet

variable {P Q : Point → Prop}

namespace Log

/-- The points that are read from the lines of a text that one of the groups keeps. -/
def observations (groups : List (List String)) (text : String) : List Point :=
  groups.flatMap fun patterns =>
    (PatternGroup.lines ⟨patterns⟩ text).filterMap fun line =>
      (Recognition.ofNamedLine line).point?

theorem forall_observations_cons {patterns : List String} {groups : List (List String)}
    {text : String}
    : (∀ p ∈ observations (patterns :: groups) text, P p) ↔
        (∀ line ∈ PatternGroup.lines ⟨patterns⟩ text, ∀ p,
          (Recognition.ofNamedLine line).point? = some p → P p)
        ∧ ∀ p ∈ observations groups text, P p := by
  rw [observations, List.flatMap_cons, List.forall_mem_append, List.forall_mem_filterMap]
  rfl

theorem exists_line_of_mem_observations {groups : List (List String)} {text : String} {p : Point}
    (h : p ∈ observations groups text)
    : ∃ line, (Recognition.ofNamedLine line).point? = some p := by
  obtain ⟨patterns, -, hp⟩ := List.mem_flatMap.mp h
  obtain ⟨line, -, hread⟩ := List.mem_filterMap.mp hp
  exact ⟨line, hread⟩

/-- A pass reads the lines that its group keeps, and logs besides. -/
theorem value_readGroup (settings : ParseSettings) (path : Path) (text : String)
    (patterns : List String)
    : (readGroup settings path text patterns).value =
        (ofLines (groupOptions settings path) (PatternGroup.lines ⟨patterns⟩ text)).value :=
  rfl

theorem diagnostics_readGroup (settings : ParseSettings) (path : Path) (text : String)
    (patterns : List String)
    : (readGroup settings path text patterns).diagnostics =
        (ofLines (groupOptions settings path) (PatternGroup.lines ⟨patterns⟩ text)).diagnostics :=
  rfl

section

variable {settings : ParseSettings} {path : Path} {text : String}
  (keeps : Keeps P settings.policy)

include keeps

theorem sound_readGroup {patterns : List String} {groups : List (List String)}
    (hread : ∀ p ∈ observations (patterns :: groups) text, P p)
    : (readGroup settings path text patterns).value.Sound P := by
  have haverage : (groupOptions settings path).average = false := rfl
  rw [value_readGroup]
  exact sound_ofLines_of_not_average haverage keeps (forall_observations_cons.mp hread).1

/-- The sets of further groups are summed up, by induction along the groups. -/
theorem sound_mergeGroups (hsum : Keeps Q .sum) (hPQ : ∀ {p}, P p → Q p)
    {groups : List (List String)} (hread : ∀ p ∈ observations groups text, P p) {set : DataSet}
    (h : set.Sound Q)
    : (mergeGroups settings path text groups set).value.Sound Q := by
  induction groups generalizing set with
  | nil => exact h
  | cons patterns groups ih =>
      obtain ⟨-, hrest⟩ := forall_observations_cons.mp hread
      have hgroup : (readGroup settings path text patterns).value.Sound P :=
        sound_readGroup keeps hread
      rw [mergeGroups, Journal.value_bind, Journal.value_bind]
      exact ih hrest (h.merge (hgroup.mono hPQ) hsum)

/-- A property of the points of one group that implies one which sums keep. -/
theorem sound_readGroups (hread : ∀ p ∈ observations settings.filters text, P p)
    (hsum : Keeps Q .sum) (hPQ : ∀ {p}, P p → Q p)
    : (readGroups settings path text).value.Sound Q := by
  unfold readGroups
  split
  · exact sound_empty _
  · next patterns groups hfilters =>
      rw [hfilters] at hread
      obtain ⟨-, hrest⟩ := forall_observations_cons.mp hread
      have hgroup : (readGroup settings path text patterns).value.Sound P :=
        sound_readGroup keeps hread
      exact sound_mergeGroups keeps hsum hPQ hrest (hgroup.mono hPQ)

/-- Through one group at most, no sums are made but those of the policy. -/
theorem sound_readGroups_of_length_le (hread : ∀ p ∈ observations settings.filters text, P p)
    (h : settings.filters.length ≤ 1)
    : (readGroups settings path text).value.Sound P := by
  unfold readGroups
  split
  · exact sound_empty _
  · next patterns groups hfilters =>
      obtain rfl : groups = [] := by
        rw [hfilters, List.length_cons] at h
        exact List.length_eq_zero_iff.mp (by omega)
      rw [hfilters] at hread
      rw [Journal.value_bind, mergeGroups, Journal.value_pure]
      exact sound_readGroup keeps hread

end

end Log

end BenchLog
