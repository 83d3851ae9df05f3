import BenchLog.Proofs.DataSet.Workspace
import BenchLog.Proofs.Decimal.General
import BenchLog.Proofs.Log.Grouped
import BenchLog.Proofs.Report.Accounted

/-! Labels identify experiments.
A label joins the parts of a key with commas, which may stand in the input as well. As long as there
is none in the benchmark, the first comma ends the benchmark, and the last one starts the count of
processors. No benchmark that is read from a line has a comma, and so no two rows of a comparison of
logs have the same label.
-/

namespace BenchLog

open DataSet PointLine

-----------------------------------------------------------------------------------------
-- The labels of keys
-----------------------------------------------------------------------------------------

section

variable {α : Type} {separator : α} {before before' after after' : List α}

/-- What is joined by a separator is told apart by the last one, which is the first one from
behind. -/
theorem append_cons_inj_of_not_mem_after (h : separator ∉ after) (h' : separator ∉ after')
    (he : before ++ separator :: after = before' ++ separator :: after')
    : before = before' ∧ after = after' := by
  have hreverse := congrArg List.reverse he
  simp only [List.reverse_append, List.reverse_cons, List.append_assoc, List.singleton_append]
    at hreverse
  obtain ⟨hafter, hbefore⟩ :=
    append_cons_inj_of_not_mem (mt List.mem_reverse.mp h) (mt List.mem_reverse.mp h') hreverse
  exact ⟨List.reverse_inj.mp hbefore, List.reverse_inj.mp hafter⟩

end

namespace Key

variable {k l : Key}

theorem toList_label (k : Key)
    : k.label.toList =
        k.benchmark.toList
          ++ ',' :: (' ' :: k.inputParams.toList
            ++ ',' :: ' ' :: Decimal.paddedDigits 2 k.processors.toNat) := by
  simp [label, processorsText]

theorem comma_not_mem_processors (processors : UInt32)
    : ',' ∉ ' ' :: Decimal.paddedDigits 2 processors.toNat := by
  intro hmem
  rcases List.mem_cons.mp hmem with h | h
  · exact absurd h (by decide)
  · exact absurd (Decimal.isDigit_of_mem_paddedDigits h) (by decide)

/-- Labels differ for different keys, as the padded count is read back as it is. -/
theorem label_inj (hk : ',' ∉ k.benchmark.toList) (hl : ',' ∉ l.benchmark.toList)
    : k.label = l.label ↔ k = l := by
  refine ⟨fun h => ?_, congrArg label⟩
  have hchars := congrArg String.toList h
  rw [toList_label, toList_label] at hchars
  obtain ⟨hbenchmark, hrest⟩ := append_cons_inj_of_not_mem hk hl hchars
  obtain ⟨hinput, hprocessors⟩ := append_cons_inj_of_not_mem_after
    (comma_not_mem_processors k.processors) (comma_not_mem_processors l.processors) hrest
  have hcount := congrArg Decimal.ofDigits (List.cons.inj hprocessors).2
  rw [Decimal.ofDigits_paddedDigits, Decimal.ofDigits_paddedDigits] at hcount
  cases k
  cases l
  rw [Key.mk.injEq]
  exact ⟨String.toList_inj.mp hbenchmark, String.toList_inj.mp (List.cons.inj hinput).2,
    UInt32.toNat_inj.mp hcount⟩

end Key

-----------------------------------------------------------------------------------------
-- Data sets that come from logs
-----------------------------------------------------------------------------------------

/-- The data set is made of points that were read from lines, by the operations on data sets. -/
inductive DataSet.FromLines : DataSet → Prop
  | read (options : LogOptions) (lines : List String) : FromLines (Log.ofLines options lines).value
  | empty (description : String) : FromLines (.empty description)
  | insert (policy : Policy) {line : String} {p : Point} {set : DataSet}
      (h : (Recognition.ofNamedLine line).point? = some p) (hset : FromLines set)
      : FromLines (set.insert policy p).value
  | merge (policy : Policy) {set other : DataSet} (hset : FromLines set) (hother : FromLines other)
      : FromLines (set.merge policy other).value
  | averaged {set : DataSet} (hset : FromLines set) : FromLines set.averaged
  | trimmed {set : DataSet} (hset : FromLines set) : FromLines set.trimmed

/-- What all operations keep is true of all points, by induction on how the data set was made. -/
theorem DataSet.FromLines.sound {P : Point → Prop} {set : DataSet} (h : set.FromLines)
    (closed : Point.Closed P)
    : set.Sound P := by
  induction h with
  | read options lines =>
      exact Log.sound_ofLines (closed.keeps _) closed.averaged fun line _ => closed.read line
  | empty description => exact sound_empty description
  | insert policy h _ ih => exact ih.insert (closed.keeps policy) fun _ => closed.read _ _ h
  | merge policy _ _ ih ihother => exact ih.merge ihother (closed.keeps policy)
  | averaged _ ih => exact ih.averaged closed.averaged
  | trimmed _ ih => exact ih.trimmed closed.trimmed

namespace Log

variable {settings : ParseSettings} {path : Path} {text : String}

theorem fromLines_readGroup (patterns : List String)
    : (readGroup settings path text patterns).value.FromLines := by
  rw [value_readGroup]
  exact .read _ _

/-- The passes of all groups of patterns, by induction along the groups. -/
theorem fromLines_mergeGroups {groups : List (List String)} {set : DataSet} (h : set.FromLines)
    : (mergeGroups settings path text groups set).value.FromLines := by
  induction groups generalizing set with
  | nil => exact h
  | cons patterns groups ih => exact ih (h.merge .sum (fromLines_readGroup patterns))

theorem fromLines_readGroups
    : (readGroups settings path text).value.FromLines := by
  unfold readGroups
  split
  · exact .empty _
  · exact fromLines_mergeGroups (fromLines_readGroup _)

end Log

/-- The label of the point ends its benchmark at the first comma. -/
def Point.Labelled (p : Point) : Prop :=
  ',' ∉ p.benchmark.toList

theorem Point.Labelled.of_key_eq {p q : Point} (h : p.Labelled) (hkey : q.key = p.key)
    : q.Labelled := by
  have hbenchmark : q.benchmark = p.benchmark := congrArg Key.benchmark hkey
  rwa [Labelled, hbenchmark]

/-- The pattern of a line does not let a comma into the benchmark. -/
theorem Point.closed_labelled
    : Closed Labelled where
  keeps policy p q _ hp _ := hp.of_key_eq (key_absorb policy p q)
  averaged p hp := hp.of_key_eq (key_averaged p)
  trimmed p hp := hp.of_key_eq (key_trimmed p)
  read _ _ h := (clean_of_accepted (Recognition.point?_ofNamedLine_iff.mp h).1).1

/-- The keys of a data set from logs have different labels. -/
theorem DataSet.FromLines.nodup_labels {set : DataSet} (h : set.FromLines)
    : (set.keys.map Key.label).Nodup := by
  have hsound := h.sound Point.closed_labelled
  have hcomma : ∀ k ∈ set.keys, ',' ∉ k.benchmark.toList := by
    intro k hk
    obtain ⟨⟨_, p⟩, hmem, rfl⟩ := List.mem_map.mp hk
    have hp : ',' ∉ p.key.benchmark.toList := hsound.all hmem
    rwa [hsound.keyed hmem] at hp
  refine hsound.ascending.nodup_keys.map_on fun k hk l hl hlabel => ?_
  exact (Key.label_inj (hcomma k hk) (hcomma l hl)).mp hlabel

-----------------------------------------------------------------------------------------
-- The labels of a report
-----------------------------------------------------------------------------------------

/-- The label of the key that an anomaly of a comparison names. -/
def Diagnostic.comparedKey? : Diagnostic → Option String
  | .newDataPoint key => some key
  | .suspiciousTimes key _ _ => some key
  | _ => none

namespace Report

variable {P Q : Point → Prop} {baseline new : DataSet} {thresholds : Thresholds}

/-- An entry has the label of its key, under which the point of the baseline stands. -/
theorem map_label_entries_compare (hbaseline : baseline.Sound P)
    : (compare baseline new thresholds).value.entries.map Entry.label =
        (new.keys.filter fun k => (baseline.get? k).isSome).map Key.label := by
  rw [← @map_key_entries_compare baseline new thresholds, List.map_map]
  apply List.map_congr_left
  intro e he
  obtain ⟨k, p, q, hp, -, rfl⟩ := mem_entries_compare_iff.mp he
  exact congrArg Key.label (hbaseline.keyed (KeyMap.mem_of_get? hp))

/-- What is reported of a key names its label. -/
theorem comparedKey?_notice? {k : Key} {d : Diagnostic} (h : notice? baseline new k = some d)
    : d.comparedKey? = some k.label := by
  obtain ⟨q, -, hq⟩ := Option.bind_eq_some_iff.mp h
  split at hq
  · obtain rfl := Option.some.inj hq
    rfl
  · split at hq
    · cases hq
    · obtain rfl := Option.some.inj hq
      rfl

/-- Keys with a report, by the labels that are named there, are among all keys. -/
theorem filterMap_comparedKey?_sublist (keys : List Key)
    : ((keys.filterMap (notice? baseline new)).filterMap Diagnostic.comparedKey?).Sublist
        (keys.map Key.label) := by
  induction keys with
  | nil => exact .slnil
  | cons k keys ih =>
      rw [List.filterMap_cons, List.map_cons]
      split
      · exact ih.cons _
      · next d hd =>
          rw [List.filterMap_cons, comparedKey?_notice? hd]
          exact ih.cons_cons _

/-- Labels of keys without a comma in their benchmarks differ exactly if the keys do, and the
benchmark of a line has none. In the comparison of data sets from logs no two entries have the
same label, and no two reports name the same key. -/
theorem labels_identify
    : (∀ k l : Key, ',' ∉ k.benchmark.toList → ',' ∉ l.benchmark.toList →
        (k.label = l.label ↔ k = l))
      ∧ (∀ p : Point, p.keyText = p.key.label)
      ∧ (∀ line p, Recognition.ofLine line = .accepted p → ',' ∉ p.benchmark.toList)
      ∧ ∀ baseline new, FromLines baseline → FromLines new → ∀ thresholds,
          let report := (compare baseline new thresholds).value
          (report.entries.map Entry.label).Nodup
          ∧ (report.diagnostics.filterMap Diagnostic.comparedKey?).Nodup := by
  refine ⟨fun k l hk hl => Key.label_inj hk hl, fun p => rfl,
    fun line p h => (Point.clean_of_accepted h).1, fun baseline new hbaseline hnew thresholds => ?_⟩
  have hleft := hbaseline.sound Point.closed_labelled
  have hright := hnew.sound Point.closed_labelled
  constructor
  · rw [map_label_entries_compare hleft]
    exact hnew.nodup_labels.sublist (List.filter_sublist.map _)
  · rw [diagnostics_compare_eq_notices hleft hright]
    exact hnew.nodup_labels.sublist (filterMap_comparedKey?_sublist new.keys)

/-- Logs whose inputs contain what separates the parts of a label. -/
def nestedText : String :=
  "CILKPUB_DATA_POINT, 1, 2, fib, [a, b], []\n"

def newerNestedText : String :=
  "CILKPUB_DATA_POINT, -1, 2, fib, [a, b], []\nCILKPUB_DATA_POINT, 1, 2, fib, [a, b, 02], []\n"

theorem labels_identify_nested
    : ∃ baseline new report,
        baseline = (Log.readGroups {} ⟨"older.log"⟩ nestedText).value
        ∧ new = (Log.readGroups {} ⟨"newer.log"⟩ newerNestedText).value
        ∧ report = (compare baseline new .standard).value
        ∧ Key.label ⟨"fib", "a, b", 2⟩ ≠ Key.label ⟨"fib", "a, b, 02", 2⟩
        ∧ (report.entries.map Entry.label).Nodup
        ∧ (report.diagnostics.filterMap Diagnostic.comparedKey?).Nodup
        ∧ report.entries.map Entry.label = ["fib, a, b, 02"]
        ∧ report.diagnostics.filterMap Diagnostic.comparedKey? =
            ["fib, a, b, 02", "fib, a, b, 02, 02"] := by
  obtain ⟨hlabels, -, -, hreport⟩ := labels_identify
  have hdiffer : (⟨"fib", "a, b", 2⟩ : Key) ≠ ⟨"fib", "a, b, 02", 2⟩ := by decide
  obtain ⟨hentries, hdiagnostics⟩ :=
    hreport (Log.readGroups {} ⟨"older.log"⟩ nestedText).value
      (Log.readGroups {} ⟨"newer.log"⟩ newerNestedText).value Log.fromLines_readGroups
      Log.fromLines_readGroups .standard
  refine ⟨_, _, _, rfl, rfl, rfl, fun h => ?_, hentries, hdiagnostics, by decide +kernel⟩
  exact hdiffer ((hlabels _ _ (by decide) (by decide)).mp h)

end Report

end BenchLog
