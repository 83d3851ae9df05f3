import BenchLog.Proofs.Command
import BenchLog.Proofs.DataSet.Union
import BenchLog.Proofs.DataSet.Workspace
import BenchLog.Proofs.Log.Grouped
import BenchLog.Proofs.Log.Reported

/-! What becomes of the observations in a log that is read through groups of patterns.
A pass counts every observation of a key if it sums up, and one of them otherwise; the counts of the
passes are added. No key is lost on the way and none is found that was not observed.
-/

namespace BenchLog

-----------------------------------------------------------------------------------------
-- Data sets that are summed up
-----------------------------------------------------------------------------------------

namespace DataSet

variable {P : Point → Prop} {policy : Policy} {set other : DataSet}

/-- The count under a key, which is zero without a point. -/
def countAt (set : DataSet) (k : Key) : Nat :=
  (set.get? k).elim 0 Point.count

theorem Sound.mem_keys_iff_countAt_pos (h : set.Sound Point.Counted) {k : Key}
    : k ∈ set.keys ↔ 0 < set.countAt k := by
  rw [keys, KeyMap.mem_keys_iff, countAt, get?]
  cases hget : set.points.get? k with
  | none => simp
  | some p =>
      have hcount : 1 ≤ p.count := h.all (KeyMap.mem_of_get? hget)
      exact iff_of_true ⟨p, rfl⟩ hcount

theorem Sound.countAt_merge_sum (h : set.Sound P) (hother : other.Sound P)
    (keeps : Keeps P .sum) (k : Key)
    : (set.merge .sum other).value.countAt k = set.countAt k + other.countAt k := by
  rw [countAt, h.get?_merge hother keeps k, countAt, countAt]
  cases set.get? k with
  | none => rw [Option.merge_none_left, Option.elim_none, Nat.zero_add]
  | some p =>
      cases other.get? k with
      | none => rfl
      | some q => rfl

-----------------------------------------------------------------------------------------
-- The counts of points that are merged one after the other
-----------------------------------------------------------------------------------------

theorem count_absorbAll_sum {points : List Point} (h : ∀ p ∈ points, p.count = 1)
    (found : Option Point)
    : (absorbAll .sum found points).elim 0 Point.count =
        found.elim 0 Point.count + points.length := by
  cases found with
  | some p =>
      rw [absorbAll_some]
      exact Point.count_foldl_absorb_sum h
  | none =>
      cases points with
      | nil => rfl
      | cons q points =>
          obtain ⟨hq, hrest⟩ := List.forall_mem_cons.mp h
          change (absorbAll .sum (some q) points).elim 0 Point.count = 0 + (points.length + 1)
          rw [absorbAll_some, Option.elim_some, Point.count_foldl_absorb_sum hrest, hq]
          omega

theorem count_absorbAll_of_ne_sum (hpolicy : policy ≠ .sum) {points : List Point}
    (h : ∀ p ∈ points, p.count = 1)
    : (absorbAll policy none points).elim 0 Point.count = if points = [] then 0 else 1 := by
  have hall : ∀ p ∈ absorbAll policy none points, p.count = 1 :=
    absorbAll_all (Point.count_absorb_eq_one hpolicy) h fun _ hp => nomatch hp
  cases hmerged : absorbAll policy none points with
  | none =>
      rw [if_pos (absorbAll_eq_none hmerged).2]
      rfl
  | some p =>
      have hne : points ≠ [] := by
        rintro rfl
        cases hmerged
      rw [if_neg hne]
      exact hall p hmerged

end DataSet

-----------------------------------------------------------------------------------------
-- One pass
-----------------------------------------------------------------------------------------

namespace Log

open DataSet

/-- The group keeps the line, and a point with the key is read from it. -/
def observes (k : Key) (patterns : List String) (line : String) : Bool :=
  PatternGroup.keeps ⟨patterns⟩ line
    && (Recognition.ofNamedLine line).point?.any fun p => p.key = k

/-- What a pass adds to the count under a key: all lines in which it was observed, or one. -/
def tally (policy : Policy) (text : String) (k : Key) (patterns : List String) : Nat :=
  if policy = .sum then (Text.lines text).countP (observes k patterns)
  else if (Text.lines text).any (observes k patterns) then 1
  else 0

theorem tally_pos_iff {policy : Policy} {text : String} {k : Key} {patterns : List String}
    : 0 < tally policy text k patterns ↔ ∃ line ∈ Text.lines text, observes k patterns line := by
  unfold tally
  split
  · exact List.countP_pos_iff
  · split
    · next hany => exact iff_of_true one_pos (List.any_eq_true.mp hany)
    · next hany => exact iff_of_false (lt_irrefl 0) fun h => hany (List.any_eq_true.mpr h)

/-- The points that a pass puts in. -/
def passPoints (text : String) (patterns : List String) : List Point :=
  (PatternGroup.lines ⟨patterns⟩ text).filterMap fun line => (Recognition.ofNamedLine line).point?

theorem count_of_mem_passPoints {text : String} {patterns : List String} {p : Point}
    (h : p ∈ passPoints text patterns)
    : p.count = 1 := by
  obtain ⟨line, -, hread⟩ := List.mem_filterMap.mp h
  obtain ⟨benchmark, processors, time, inputParams, outputData, rfl⟩ :=
    Recognition.exists_single_of_point? hread
  rfl

/-- The points with a key that a pass puts in are as many as the lines in which it is observed. -/
theorem length_under_passPoints (text : String) (k : Key) (patterns : List String)
    : (under k (passPoints text patterns)).length =
        (Text.lines text).countP (observes k patterns) := by
  rw [under, ← List.countP_eq_length_filter, passPoints, List.countP_filterMap,
    PatternGroup.lines, List.countP_filter]
  apply List.countP_congr
  intro line _
  rw [observes, Bool.and_comm]
  cases hread : (Recognition.ofNamedLine line).point? with
  | none => simp
  | some p => simp [(Recognition.point?_ofNamedLine_iff.mp hread).2]

theorem under_passPoints_eq_nil_iff {text : String} {k : Key} {patterns : List String}
    : under k (passPoints text patterns) = [] ↔
        ¬ (Text.lines text).any (observes k patterns) = true := by
  rw [← List.length_eq_zero_iff, length_under_passPoints, List.countP_eq_zero]
  simp

variable (settings : ParseSettings) (path : Path) (text : String)

theorem counted_of_mem_observations (groups : List (List String))
    : ∀ p ∈ observations groups text, p.Counted := by
  intro p hp
  obtain ⟨line, hread⟩ := exists_line_of_mem_observations hp
  exact Point.closed_counted.read line p hread

theorem sound_counted_readGroup (patterns : List String)
    : (readGroup settings path text patterns).value.Sound Point.Counted := by
  have keeps : Keeps Point.Counted settings.policy := Point.closed_counted.keeps _
  exact sound_readGroup keeps (counted_of_mem_observations text [patterns])

theorem get?_readGroup (patterns : List String) (k : Key)
    : (readGroup settings path text patterns).value.get? k =
        absorbAll settings.policy none (under k (passPoints text patterns)) := by
  have keeps : Keeps (fun _ => True) settings.policy := fun _ _ _ => trivial
  rw [value_readGroup, value_ofLines]
  exact (sound_empty _).get?_insertAll keeps (fun _ _ _ => trivial) k

/-- One pass counts what its tally says. -/
theorem countAt_readGroup (patterns : List String) (k : Key)
    : (readGroup settings path text patterns).value.countAt k =
        tally settings.policy text k patterns := by
  have hsingle : ∀ p ∈ under k (passPoints text patterns), p.count = 1 :=
    fun p hp => count_of_mem_passPoints (List.mem_of_mem_filter hp)
  rw [countAt, get?_readGroup, tally]
  split
  · next hsum =>
      rw [hsum, count_absorbAll_sum hsingle, Option.elim_none, Nat.zero_add,
        length_under_passPoints]
  · next hsum =>
      rw [count_absorbAll_of_ne_sum hsum hsingle]
      by_cases hnone : under k (passPoints text patterns) = []
      · rw [if_pos hnone, if_neg (under_passPoints_eq_nil_iff.mp hnone)]
      · rw [if_neg hnone, if_pos (not_not.mp fun h => hnone (under_passPoints_eq_nil_iff.mpr h))]

-----------------------------------------------------------------------------------------
-- All passes
-----------------------------------------------------------------------------------------

variable {settings path text}

/-- Further passes add their tallies, by induction along the groups. -/
theorem countAt_mergeGroups {set : DataSet} (h : set.Sound Point.Counted) (k : Key)
    (groups : List (List String))
    : (mergeGroups settings path text groups set).value.countAt k =
        set.countAt k + (groups.map (tally settings.policy text k)).sum := by
  induction groups generalizing set with
  | nil => rfl
  | cons patterns groups ih =>
      have keeps : Keeps Point.Counted .sum := Point.closed_counted.keeps _
      have hnext := sound_counted_readGroup settings path text patterns
      rw [mergeGroups, Journal.value_bind, Journal.value_bind, ih (h.merge hnext keeps),
        h.countAt_merge_sum hnext keeps, countAt_readGroup, List.map_cons, List.sum_cons,
        Nat.add_assoc]

theorem description_mergeGroups {set : DataSet} (groups : List (List String))
    : (mergeGroups settings path text groups set).value.description = set.description := by
  induction groups generalizing set with
  | nil => rfl
  | cons patterns groups ih =>
      rw [mergeGroups, Journal.value_bind, Journal.value_bind, ih, description_merge]

/-- Every further pass reports what it meets and then whether its description differs from the
first one, by induction along the groups. -/
theorem diagnostics_mergeGroups {set : DataSet} (h : set.Sound Point.Counted)
    (groups : List (List String))
    : (mergeGroups settings path text groups set).diagnostics =
        groups.flatMap fun patterns =>
          (readGroup settings path text patterns).diagnostics
            ++ mismatch set.description
                (readGroup settings path text patterns).value.description := by
  induction groups generalizing set with
  | nil => rfl
  | cons patterns groups ih =>
      have keeps : Keeps Point.Counted .sum := Point.closed_counted.keeps _
      have hnext := sound_counted_readGroup settings path text patterns
      rw [mergeGroups, Journal.diagnostics_bind, Journal.diagnostics_bind,
        ih (h.merge hnext keeps), h.diagnostics_merge_of_ne_warn hnext keeps (by decide),
        description_merge, List.flatMap_cons, List.append_assoc]

theorem sound_counted_readGroups
    : (readGroups settings path text).value.Sound Point.Counted :=
  sound_readGroups (Point.closed_counted.keeps _) (counted_of_mem_observations text _)
    (Point.closed_counted.keeps _) id

theorem countAt_readGroups (k : Key)
    : (readGroups settings path text).value.countAt k =
        (settings.filters.map (tally settings.policy text k)).sum := by
  unfold readGroups
  split
  · next hfilters =>
      rw [hfilters]
      rfl
  · next patterns groups hfilters =>
      rw [hfilters, Journal.value_bind,
        countAt_mergeGroups (sound_counted_readGroup settings path text patterns),
        countAt_readGroup, List.map_cons, List.sum_cons]

theorem mem_keys_readGroups {k : Key}
    : k ∈ (readGroups settings path text).value.keys ↔
        ∃ patterns ∈ settings.filters, ∃ line ∈ Text.lines text, observes k patterns line := by
  rw [sound_counted_readGroups.mem_keys_iff_countAt_pos, countAt_readGroups,
    List.sum_pos_iff_exists_pos_nat]
  constructor
  · rintro ⟨_, hmem, hpos⟩
    obtain ⟨patterns, hpatterns, rfl⟩ := List.mem_map.mp hmem
    exact ⟨patterns, hpatterns, tally_pos_iff.mp hpos⟩
  · rintro ⟨patterns, hpatterns, hline⟩
    exact ⟨_, List.mem_map_of_mem hpatterns, tally_pos_iff.mpr hline⟩

theorem sum_tally_of_ne_sum {policy : Policy} (h : policy ≠ .sum) (text : String) (k : Key)
    (groups : List (List String))
    : (groups.map (tally policy text k)).sum =
        groups.countP fun patterns => (Text.lines text).any (observes k patterns) := by
  induction groups with
  | nil => rfl
  | cons patterns groups ih =>
      rw [List.map_cons, List.sum_cons, ih, List.countP_cons, tally, if_neg h, Nat.add_comm]

/-- The description is what the first pass found, or the path. -/
theorem description_readGroups
    : (readGroups settings path text).value.description =
        (settings.filters.head?.bind fun patterns =>
          (PatternGroup.lines ⟨patterns⟩ text).findSome? (describes? settings.labels)).getD
          path.text := by
  unfold readGroups
  split
  · next hfilters =>
      rw [hfilters]
      rfl
  · next patterns groups hfilters =>
      rw [hfilters, Journal.value_bind, description_mergeGroups, value_readGroup,
        description_ofLines]
      rfl

/-- Every pass reports what it meets, and one after the first also if its description differs. -/
theorem diagnostics_readGroups
    : (readGroups settings path text).diagnostics =
        let read := fun patterns =>
          ofLines (groupOptions settings path) (PatternGroup.lines ⟨patterns⟩ text)
        match settings.filters with
        | [] => []
        | first :: others =>
            (read first).diagnostics
              ++ others.flatMap fun patterns =>
                  (read patterns).diagnostics
                    ++ mismatch (read first).value.description
                        (read patterns).value.description := by
  cases hfilters : settings.filters with
  | nil =>
      rw [readGroups, hfilters]
      rfl
  | cons patterns groups =>
      rw [readGroups, hfilters, Journal.diagnostics_bind,
        diagnostics_mergeGroups (sound_counted_readGroup settings path text patterns)]
      simp only [diagnostics_readGroup, value_readGroup]

end Log

-----------------------------------------------------------------------------------------
-- Logs in files
-----------------------------------------------------------------------------------------

open DataSet Log in
/-- A log that is loaded through groups of patterns has the keys of all observations that a group
keeps. Their counts are the observations of each group if these are summed up, and else the groups
that keep one. The first group describes the run; every group reports what it meets, and any other
also if it describes the run differently. -/
theorem loadFiltered_accounting {tree : FileTree} {path : Path} {bytes : List UInt8}
    (h : tree.read path = .ok bytes) (settings : ParseSettings)
    : let text := Text.textOfBytes bytes
      let read := fun patterns =>
        ofLines (groupOptions settings path) (PatternGroup.lines ⟨patterns⟩ text)
      ∃ set diagnostics events,
        (loadFiltered settings path : Command (StateM FileTree) _).outcome.run tree =
            ((.ok (set, diagnostics), events), tree)
        ∧ (∀ k, k ∈ set.keys ↔
            ∃ patterns ∈ settings.filters, ∃ line ∈ Text.lines text, observes k patterns line)
        ∧ (settings.policy = .sum → ∀ k p, set.get? k = some p →
            p.count =
              (settings.filters.map fun patterns =>
                (Text.lines text).countP (observes k patterns)).sum)
        ∧ (settings.policy ≠ .sum → ∀ k p, set.get? k = some p →
            p.count =
              settings.filters.countP fun patterns =>
                (Text.lines text).any (observes k patterns))
        ∧ set.description =
            (settings.filters.head?.bind fun patterns =>
              (PatternGroup.lines ⟨patterns⟩ text).findSome? (describes? settings.labels)).getD
              path.text
        ∧ diagnostics =
            match settings.filters with
            | [] => []
            | first :: others =>
                (read first).diagnostics
                  ++ others.flatMap fun patterns =>
                      (read patterns).diagnostics
                        ++ mismatch (read first).value.description
                            (read patterns).value.description := by
  intro text read
  have hcount : ∀ {k p}, (readGroups settings path text).value.get? k = some p →
      p.count = (settings.filters.map (tally settings.policy text k)).sum := by
    intro k p hget
    rw [← countAt_readGroups, countAt, hget, Option.elim_some]
  refine ⟨_, _, _, run_loadFiltered h settings, fun k => mem_keys_readGroups, ?_, ?_,
    description_readGroups, diagnostics_readGroups⟩
  · intro hpolicy k p hget
    rw [hcount hget]
    congr 1
    apply List.map_congr_left
    intro patterns _
    rw [tally, if_pos hpolicy]
  · intro hpolicy k p hget
    rw [hcount hget, sum_tally_of_ne_sum hpolicy]

/-- A run that describes itself twice. -/
def Log.describedText : String :=
  "# Branch = main\nCILKPUB_DATA_POINT, 1, 2, fib, [in], [a]\n# Version = 7\n"

/-- The first two groups keep the point with one of the descriptions each, the last one neither. -/
def Log.overlappingGroups : ParseSettings where
  filters := [["main", "fib"], ["Version", "CILKPUB"], ["sort"]]

def Log.describedTree : FileTree :=
  ⟨[(["run.log".toList], Text.bytesOfText Log.describedText)]⟩

open DataSet Log in
theorem loadFiltered_accounting_describedText
    : ∃ set diagnostics events,
        (loadFiltered overlappingGroups ⟨"run.log"⟩ : Command (StateM FileTree) _).outcome.run
            describedTree =
          ((.ok (set, diagnostics), events), describedTree)
        ∧ ⟨"fib", "in", 2⟩ ∈ set.keys
        ∧ (∀ p, set.get? ⟨"fib", "in", 2⟩ = some p → p.count = 2)
        ∧ set.description = "main"
        ∧ diagnostics.length = 2 := by
  have hread
      : describedTree.read ⟨"run.log"⟩ = .ok (Text.bytesOfText describedText) := by
    decide +kernel
  obtain ⟨set, diagnostics, events, hrun, hkeys, hsum, -, hdescription, hdiagnostics⟩ :=
    loadFiltered_accounting hread overlappingGroups
  refine ⟨set, diagnostics, events, hrun, (hkeys _).mpr ?_, fun p hp => ?_, ?_, ?_⟩
  · decide +kernel
  · rw [hsum rfl _ p hp]
    decide +kernel
  · rw [hdescription]
    decide +kernel
  · rw [hdiagnostics]
    decide +kernel

end BenchLog
