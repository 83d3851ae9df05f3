import BenchLog.Proofs.DataSet.Built
import BenchLog.Proofs.Decimal.Order
import BenchLog.Proofs.Report.Compared

/-! The keys of a comparison.
Every key of the newer set is either compared or new and never both, and a key of the baseline is
compared unless the newer set lacks it. What is reported follows the keys of the newer set.
-/

namespace BenchLog

open DataSet Decimal

-----------------------------------------------------------------------------------------
-- One comparison
-----------------------------------------------------------------------------------------

namespace Entry

variable {k : Key} {p q : Point}

theorem suspicious_ofPoints_eq_true_iff
    : (ofPoints k p q).suspicious = true ↔ ¬ (0 < p.trimmedAverage ∧ 0 < q.trimmedAverage) := by
  rw [← suspicious_ofPoints_iff, Bool.not_eq_false]

/-- A time that is no number is not positive. -/
theorem suspicious_of_isNaN (h : p.trimmedAverage.isNaN = true ∨ q.trimmedAverage.isNaN = true)
    : (ofPoints k p q).suspicious = true := by
  rw [suspicious_ofPoints_eq_true_iff]
  rintro ⟨hp, hq⟩
  rw [(isNaN_of_lt hp).2, (isNaN_of_lt hq).2, or_self_iff] at h
  exact Bool.false_ne_true h

theorem percentDiff_ofPoints
    : (ofPoints k p q).percentDiff =
        if (ofPoints k p q).suspicious then 1e300
        else (q.trimmedAverage - p.trimmedAverage) * 100 / p.trimmedAverage :=
  rfl

end Entry

namespace Report

variable {P Q : Point → Prop} {baseline new : DataSet} {thresholds : Thresholds}

-----------------------------------------------------------------------------------------
-- Keys
-----------------------------------------------------------------------------------------

theorem map_key_entries_compare
    : (compare baseline new thresholds).value.entries.map Entry.key =
        new.keys.filter fun k => (baseline.get? k).isSome := by
  rw [entries_compare_eq_shared, List.map_map, ← keys_shared]
  rfl

theorem isSome_get?_iff {set : DataSet} {k : Key}
    : (set.get? k).isSome = true ↔ k ∈ set.keys := by
  rw [keys, KeyMap.mem_keys_iff, Option.isSome_iff_exists]
  rfl

theorem isNone_get?_iff {set : DataSet} {k : Key}
    : (set.get? k).isNone = true ↔ k ∉ set.keys := by
  rw [← isSome_get?_iff, Option.isNone_iff_eq_none, Option.not_isSome_iff_eq_none]

/-- The keys of the newer set are divided among the entries and the new points. -/
theorem length_entries_add_length_newPoints
    : (compare baseline new thresholds).value.entries.length
        + (compare baseline new thresholds).value.newPoints.length =
          new.size := by
  have hentries := congrArg List.length (@map_key_entries_compare baseline new thresholds)
  have hdivided := new.keys.length_eq_length_filter_add fun k => (baseline.get? k).isSome
  have hsize : new.keys.length = new.size := List.length_map _
  simp only [Option.not_isSome] at hdivided
  rw [List.length_map] at hentries
  rw [hentries, newPoints_compare, ← hdivided, hsize]

/-- The keys of the baseline are divided among the entries and those that the newer set lacks, since
the shared keys are the same from both sides. -/
theorem length_entries_add_length_absent (hbaseline : baseline.points.Ascending)
    (hnew : new.points.Ascending)
    : (compare baseline new thresholds).value.entries.length
        + (baseline.keys.filter fun k => k ∉ new.keys).length =
          baseline.size := by
  have hshared : (shared baseline new).length = (shared new baseline).length := by
    rw [shared_swap hbaseline hnew, KeyMap.mapValues, List.length_map]
  have hkeys := congrArg List.length (@keys_shared new baseline)
  have habsent
      : (baseline.keys.filter fun k => !(new.get? k).isSome) =
          baseline.keys.filter fun k => k ∉ new.keys := by
    apply List.filter_congr
    intro k _
    rw [Option.not_isSome, Bool.eq_iff_iff, isNone_get?_iff, decide_eq_true_eq]
  have hdivided := baseline.keys.length_eq_length_filter_add fun k => (new.get? k).isSome
  have hsize : baseline.keys.length = baseline.size := List.length_map _
  rw [KeyMap.keys, List.length_map] at hkeys
  rw [entries_compare_eq_shared, List.length_map, hshared, hkeys, ← habsent, ← hdivided, hsize]

-----------------------------------------------------------------------------------------
-- Reports
-----------------------------------------------------------------------------------------

/-- What two data sets give to report of a key: that only the newer one has it, or that one of the
two average times is not positive. -/
def notice? (baseline new : DataSet) (k : Key) : Option Diagnostic :=
  (new.get? k).bind fun q =>
    match baseline.get? k with
    | none => some (.newDataPoint k.label)
    | some p =>
        if 0 < p.trimmedAverage ∧ 0 < q.trimmedAverage then none
        else some (.suspiciousTimes k.label p.trimmedAverage q.trimmedAverage)

/-- The anomaly of a point is that of its key, under which all points stand. -/
theorem anomaly?_eq_notice? (hbaseline : baseline.Sound P) (hnew : new.Sound Q) {k : Key}
    {q : Point} (hmem : (k, q) ∈ new.points)
    : anomaly? baseline k q = notice? baseline new k := by
  have hq : new.get? k = some q := hnew.ascending.get?_of_mem hmem
  have hqkey : q.key = k := hnew.keyed hmem
  rw [notice?, hq, Option.bind_some, anomaly?, comparison?]
  cases hp : baseline.get? k with
  | none => rw [← hqkey]; rfl
  | some p =>
      have hpkey : p.key = k := hbaseline.keyed (KeyMap.mem_of_get? hp)
      dsimp only [Option.map_some]
      rw [Entry.anomaly?]
      by_cases hpos : 0 < p.trimmedAverage ∧ 0 < q.trimmedAverage
      · rw [Entry.suspicious_ofPoints_iff.mpr hpos, if_pos hpos, if_neg Bool.false_ne_true]
      · rw [Entry.suspicious_ofPoints_eq_true_iff.mpr hpos, if_neg hpos, if_pos rfl, ← hpkey]
        rfl

theorem diagnostics_compare_eq_notices (hbaseline : baseline.Sound P) (hnew : new.Sound Q)
    : (compare baseline new thresholds).value.diagnostics =
        new.keys.filterMap (notice? baseline new) := by
  rw [diagnostics_compare, keys, KeyMap.keys, List.filterMap_map]
  apply List.filterMap_congr
  rintro ⟨k, q⟩ hmem
  exact anomaly?_eq_notice? hbaseline hnew hmem

-----------------------------------------------------------------------------------------
-- The account
-----------------------------------------------------------------------------------------

/-- A comparison accounts for every key of both sets. Its entries are the shared keys with the
trimmed averages of both points, its new points the other keys of the newer set, both in ascending
order; a new key and an entry whose times are not both positive are each reported once. -/
theorem compare_accounts (hbaseline : baseline.Built) (hnew : new.Built) (thresholds : Thresholds)
    : let report := (compare baseline new thresholds).value
      (∀ k, k ∈ report.entries.map Entry.key ↔ k ∈ baseline.keys ∧ k ∈ new.keys)
      ∧ (∀ k, k ∈ report.newPoints ↔ k ∈ new.keys ∧ k ∉ baseline.keys)
      ∧ (report.entries.map Entry.key).Pairwise (fun k l => k.compare l = .lt)
      ∧ report.newPoints.Pairwise (fun k l => k.compare l = .lt)
      ∧ report.entries.length + report.newPoints.length = new.size
      ∧ report.entries.length + (baseline.keys.filter fun k => k ∉ new.keys).length = baseline.size
      ∧ (∀ e ∈ report.entries,
          e.label = e.key.label
          ∧ (∃ p q, baseline.get? e.key = some p ∧ new.get? e.key = some q
              ∧ e.baselineTime = p.trimmedAverage ∧ e.newTime = q.trimmedAverage)
          ∧ (e.suspicious = true ↔ ¬ (0 < e.baselineTime ∧ 0 < e.newTime))
          ∧ (e.baselineTime.isNaN = true ∨ e.newTime.isNaN = true → e.suspicious = true)
          ∧ e.percentDiff =
              if e.suspicious then 1e300
              else (e.newTime - e.baselineTime) * 100 / e.baselineTime)
      ∧ report.diagnostics = new.keys.filterMap (notice? baseline new) := by
  intro report
  have hleft := hbaseline.sound
  have hright := hnew.sound
  have hentries : report.entries.map Entry.key = new.keys.filter fun k => (baseline.get? k).isSome :=
    map_key_entries_compare
  have hnewPoints : report.newPoints = new.keys.filter fun k => (baseline.get? k).isNone :=
    newPoints_compare
  refine ⟨fun k => ?_, fun k => ?_, ?_, ?_, length_entries_add_length_newPoints,
    length_entries_add_length_absent hleft.ascending hright.ascending, fun e he => ?_,
    diagnostics_compare_eq_notices hleft hright⟩
  · rw [hentries, List.mem_filter, isSome_get?_iff, and_comm]
  · rw [hnewPoints, List.mem_filter, isNone_get?_iff]
  · rw [hentries]
    exact hright.ascending.filter _
  · rw [hnewPoints]
    exact hright.ascending.filter _
  · obtain ⟨k, p, q, hp, hq, rfl⟩ := mem_entries_compare_iff.mp he
    have hlabel : p.keyText = k.label := congrArg Key.label (hleft.keyed (KeyMap.mem_of_get? hp))
    exact ⟨hlabel, ⟨p, q, hp, hright.ascending.get?_of_mem hq, rfl, rfl⟩,
      Entry.suspicious_ofPoints_eq_true_iff, Entry.suspicious_of_isNaN, Entry.percentDiff_ofPoints⟩

/-- Two runs that share two experiments, of which one has no number for its time in the first run;
the second run lacks one experiment and has a new one. -/
def olderRun : DataSet :=
  (ofPoints "older" .sum
    [.single "walk" 4 1 "" "", .single "fib" 2 2 "in" "", .single "sort" 2 (0 / 0) "" ""]).value

def newerRun : DataSet :=
  (ofPoints "newer" .sum
    [.single "zip" 2 1 "" "", .single "sort" 2 4 "" "", .single "fib" 2 3 "in" ""]).value

theorem compare_accounts_newerRun
    : let report := (compare olderRun newerRun .standard).value
      olderRun.Built
      ∧ newerRun.Built
      ∧ report.entries.map (fun e => (e.label, e.suspicious)) =
          [("fib, in, 02", false), ("sort, , 02", true)]
      ∧ report.newPoints = [⟨"zip", "", 2⟩]
      ∧ report.entries.length + report.newPoints.length = 3
      ∧ report.entries.length + 1 = 3
      ∧ report.diagnostics.map (·.message) =
          ["suspicious data point sort, , 02 with btime = NaN, ntime = 4.000000",
            "new data point: zip, , 02"] := by
  intro report
  have holder : olderRun.Built := by
    refine built_ofPoints _ _ ?_
    simp only [List.forall_mem_cons, List.not_mem_nil, false_imp_iff, implies_true, and_true]
    exact ⟨.ofCount .., .ofCount .., .ofCount ..⟩
  have hnewer : newerRun.Built := by
    refine built_ofPoints _ _ ?_
    simp only [List.forall_mem_cons, List.not_mem_nil, false_imp_iff, implies_true, and_true]
    exact ⟨.ofCount .., .ofCount .., .ofCount ..⟩
  obtain ⟨-, -, -, -, hnew, hgone, -, hdiagnostics⟩ := compare_accounts holder hnewer .standard
  have habsent : (olderRun.keys.filter fun k => k ∉ newerRun.keys).length = 1 := by decide +kernel
  refine ⟨holder, hnewer, by decide +kernel, by decide +kernel, hnew.trans (by decide +kernel), ?_, ?_⟩
  · rw [habsent] at hgone
    exact hgone.trans (by decide +kernel)
  · rw [hdiagnostics]
    decide +kernel

end Report

end BenchLog
