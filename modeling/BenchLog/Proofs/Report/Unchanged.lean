import BenchLog.Proofs.Command.Files
import BenchLog.Proofs.Decimal.Magnitude
import BenchLog.Proofs.Decimal.Vanishing
import BenchLog.Proofs.Log.Accounting
import BenchLog.Proofs.Report.Direction

/-! The comparison of a run with itself.
Every point is compared with itself, which shows no change unless its time is not positive. Then the
entry is suspicious and counts as slower and as changed, whatever its time is.
-/

namespace BenchLog

open Decimal

-----------------------------------------------------------------------------------------
-- One comparison
-----------------------------------------------------------------------------------------

namespace Entry

variable {time : Float}

theorem percent_self_of_isFinite (hpos : 0 < time) (hfinite : time.isFinite = true)
    : percent time time = 0 := by
  have hzero : (0 : Float) * 100 = 0 := by decide +kernel
  rw [percent_of_pos hpos hpos, sub_self_of_isFinite hfinite, hzero, zero_div_of_pos hpos]

/-- An infinite time has no change in percent. -/
theorem isNaN_percent_self (hpos : 0 < time) (hfinite : ¬ time.isFinite = true)
    : (percent time time).isNaN = true := by
  rw [percent_of_pos hpos hpos]
  exact isNaN_div (isNaN_mul (isNaN_sub_self hfinite) 100) time

/-- Neither zero nor what is no number is a change. -/
theorem not_le_abs_percent_self (hpos : 0 < time) {least : Float} (hleast : 0 < least)
    : ¬ least ≤ (percent time time).abs := by
  by_cases hfinite : time.isFinite = true
  · have hzero : (0 : Float).abs = 0 := by decide +kernel
    rw [percent_self_of_isFinite hpos hfinite, hzero]
    intro hle
    have hlt := lt_le_trans hleast hle
    exact not_gt_of_lt hlt hlt
  · exact not_le_of_isNaN (Or.inr ((isNaN_abs _).trans (isNaN_percent_self hpos hfinite)))

section

variable {t : Thresholds} {k : Key} {p q : Point}

/-- The change of a suspicious entry reaches all thresholds that are no greater. -/
theorem listed_of_suspicious (hlarge : t.large ≤ suspiciousPercent)
    (hreport : t.report ≤ suspiciousPercent) (h : (ofPoints k p q).suspicious = true)
    : (ofPoints k p q).isSlower t = true ∧ (ofPoints k p q).isChanged t = true := by
  have hpercent : (ofPoints k p q).percentDiff = suspiciousPercent := if_pos h
  have habs : suspiciousPercent.abs = suspiciousPercent := by decide +kernel
  rw [isSlower, isChanged, hpercent, habs]
  exact ⟨decide_eq_true hlarge, decide_eq_true hreport⟩

/-- A point compared with itself is listed exactly if it is suspicious, and never as faster. -/
theorem listed_self (hlarge : 0 < t.large ∧ t.large ≤ suspiciousPercent)
    (hreport : 0 < t.report ∧ t.report ≤ suspiciousPercent)
    : let e := ofPoints k p p
      e.isSlower t = e.suspicious
      ∧ e.isFaster t = false
      ∧ e.isChanged t = e.suspicious := by
  intro e
  have hirrefl : ¬ p.trimmedAverage < p.trimmedAverage := fun hlt => not_gt_of_lt hlt hlt
  have hfaster : e.isFaster t = false :=
    (Bool.not_eq_true _).mp fun h => hirrefl (lt_of_isFaster hlarge.1 h).2
  cases hsuspicious : e.suspicious with
  | true =>
      obtain ⟨hslower, hchanged⟩ := listed_of_suspicious hlarge.2 hreport.2 hsuspicious
      exact ⟨hslower, hfaster, hchanged⟩
  | false =>
      obtain ⟨hpos, -⟩ := suspicious_ofPoints_iff.mp hsuspicious
      have hslower : e.isSlower t = false :=
        (Bool.not_eq_true _).mp fun h => hirrefl (lt_of_isSlower hlarge.1 hsuspicious h)
      exact ⟨hslower, hfaster, decide_eq_false (not_le_abs_percent_self hpos hreport.1)⟩

end

/-- The anomalies of entries are those of the suspicious ones. -/
theorem filterMap_anomaly? (entries : List Entry)
    : entries.filterMap anomaly? =
        (entries.filter (·.suspicious)).map fun e =>
          .suspiciousTimes e.label e.baselineTime e.newTime := by
  rw [← List.filterMap_eq_map, List.filterMap_filter]
  rfl

end Entry

-----------------------------------------------------------------------------------------
-- All comparisons
-----------------------------------------------------------------------------------------

namespace Report

variable {set : DataSet} {thresholds : Thresholds}

theorem comparison?_self (h : set.points.Ascending) {k : Key} {p : Point}
    (hmem : (k, p) ∈ set.points)
    : comparison? set k p = some (.ofPoints k p p) := by
  rw [comparison?, DataSet.get?, h.get?_of_mem hmem]
  rfl

theorem entries_compare_self (h : set.points.Ascending)
    : (compare set set thresholds).value.entries =
        set.points.map fun (k, p) => .ofPoints k p p := by
  rw [entries_compare, ← List.filterMap_eq_map]
  exact List.filterMap_congr fun entry hmem => comparison?_self h hmem

theorem diagnostics_compare_self (h : set.points.Ascending)
    : (compare set set thresholds).value.diagnostics =
        (compare set set thresholds).value.entries.filterMap Entry.anomaly? := by
  rw [diagnostics_compare, entries_compare_self h, List.filterMap_map]
  apply List.filterMap_congr
  rintro ⟨k, p⟩ hmem
  simp only [anomaly?, comparison?_self h hmem, Function.comp_apply]

theorem newPoints_compare_self
    : (compare set set thresholds).value.newPoints = [] := by
  rw [newPoints_compare, List.filter_eq_nil_iff]
  intro k hk
  obtain ⟨p, hp⟩ := KeyMap.mem_keys_iff.mp hk
  have hget : set.get? k = some p := hp
  simp [hget]

section

variable (h : set.points.Ascending)

include h

theorem exists_of_mem_entries_compare_self {e : Entry}
    (he : e ∈ (compare set set thresholds).value.entries)
    : ∃ k p, e = .ofPoints k p p := by
  rw [entries_compare_self h] at he
  obtain ⟨⟨k, p⟩, -, rfl⟩ := List.mem_map.mp he
  exact ⟨k, p, rfl⟩

/-- The sections of a set compared with itself are made of the suspicious entries. -/
theorem sections_compare_self
    (hlarge : 0 < thresholds.large ∧ thresholds.large ≤ Entry.suspiciousPercent)
    (hreport : 0 < thresholds.report ∧ thresholds.report ≤ Entry.suspiciousPercent)
    : let report := (compare set set thresholds).value
      report.faster = []
      ∧ report.slower = report.entries.filter (·.suspicious)
      ∧ report.changed = report.entries.filter (·.suspicious) := by
  intro report
  have hlisted : ∀ e ∈ report.entries,
      e.isSlower thresholds = e.suspicious
      ∧ e.isFaster thresholds = false
      ∧ e.isChanged thresholds = e.suspicious := by
    intro e he
    obtain ⟨k, p, rfl⟩ := exists_of_mem_entries_compare_self h he
    exact Entry.listed_self hlarge hreport
  refine ⟨List.filter_eq_nil_iff.mpr fun e he => ?_, List.filter_congr fun e he => ?_,
    List.filter_congr fun e he => ?_⟩
  · exact Bool.eq_false_iff.mp (hlisted e he).2.1
  · exact (hlisted e he).1
  · exact (hlisted e he).2.2

theorem percentDiff_compare_self {e : Entry}
    (he : e ∈ (compare set set thresholds).value.entries) (hsuspicious : e.suspicious = false)
    (hfinite : e.baselineTime.isFinite = true)
    : e.percentDiff = 0 := by
  obtain ⟨k, p, rfl⟩ := exists_of_mem_entries_compare_self h he
  exact Entry.percent_self_of_isFinite (Entry.suspicious_ofPoints_iff.mp hsuspicious).1 hfinite

end

end Report

theorem Log.LoadedFrom.ascending {tree : FileTree} {settings : ParseSettings} {path : Path}
    {set : DataSet} (h : Log.LoadedFrom tree settings path set)
    : set.points.Ascending := by
  obtain ⟨bytes, -, rfl⟩ := h
  exact Log.sound_counted_readGroups.ascending

-----------------------------------------------------------------------------------------
-- Runs
-----------------------------------------------------------------------------------------

/-- A run compared with itself has an entry for every key and shows no change. The entries that are
listed as slower and as changed are the suspicious ones, each of which is reported once. -/
theorem diff_self_unchanged {tree : FileTree} {base output : Path} {thresholds : Thresholds}
    (settings : ParseSettings) (hbase : tree.Readable base) (houtput : tree.Creatable output)
    (hlarge : 0 < thresholds.large ∧ thresholds.large ≤ 1e300)
    (hreport : 0 < thresholds.report ∧ thresholds.report ≤ 1e300)
    : ∃ comparison events after,
        (diff base none output thresholds settings : Command (StateM FileTree) _).outcome.run tree =
            ((.ok comparison, events), after)
        ∧ Log.LoadedFrom tree settings base comparison.baseline
        ∧ comparison.new = comparison.baseline
        ∧ let report := comparison.report
          let suspicious := report.entries.filter (·.suspicious)
          report.newPoints = []
          ∧ comparison.baseline.points.Ascending
          ∧ report.entries.map (·.key) = comparison.baseline.keys
          ∧ report.faster = []
          ∧ report.slower = suspicious
          ∧ report.changed = suspicious
          ∧ (∀ e ∈ report.entries, e.suspicious = false → e.baselineTime.isFinite = true →
              e.percentDiff = 0)
          ∧ report.diagnostics =
              suspicious.map fun e => .suspiciousTimes e.label e.baselineTime e.newTime := by
  obtain ⟨comparison, after, hyields, hloaded, hself, -, hcompare, -⟩ :=
    exists_yields_diff thresholds settings hbase (fun path (h : path ∈ none) => nomatch h) houtput
  obtain ⟨events, hrun⟩ := hyields.exists_outcome
  have hascending := hloaded.ascending
  have hnew := hself rfl
  rw [hnew] at hcompare
  obtain ⟨hfaster, hslower, hchanged⟩ := Report.sections_compare_self hascending hlarge hreport
  refine ⟨comparison, events, after, hrun, hloaded, hnew, ?_⟩
  rw [hcompare]
  refine ⟨Report.newPoints_compare_self, hascending, ?_, hfaster, hslower, hchanged,
    fun e he => Report.percentDiff_compare_self hascending he, ?_⟩
  · rw [Report.entries_compare_self hascending, List.map_map]
    rfl
  · rw [Report.diagnostics_compare_self hascending, Entry.filterMap_anomaly?]

/-- A run with a time that is not positive and one that is not finite. -/
def FileTree.irregular : FileTree :=
  ⟨[(["run.log".toList],
      Text.bytesOfText
        ("CILKPUB_DATA_POINT, inf, 8, walk, [in], [a]\n"
          ++ "CILKPUB_DATA_POINT, 0, 4, sort, [in], [a]\n"
          ++ "CILKPUB_DATA_POINT, 1, 2, fib, [in], [a]\n"))]⟩

/-- The infinite time is in no section, the one that is not positive in two. -/
theorem diff_self_unchanged_irregular
    : ∃ comparison events after,
        (diff ⟨"run.log"⟩ none ⟨"run.txt"⟩ .standard {} : Command (StateM FileTree) _).outcome.run
            .irregular =
          ((.ok comparison, events), after)
        ∧ comparison.report.entries.map (fun e => (e.key.benchmark, e.suspicious)) =
            [("fib", false), ("sort", true), ("walk", false)]
        ∧ comparison.report.faster = []
        ∧ comparison.report.slower.map (·.label) = ["sort, in, 04"]
        ∧ comparison.report.changed.map (·.label) = ["sort, in, 04"]
        ∧ comparison.report.diagnostics = [.suspiciousTimes "sort, in, 04" 0 0] := by
  have hbase : FileTree.irregular.Readable ⟨"run.log"⟩ := ⟨_, rfl⟩
  have houtput : FileTree.irregular.Creatable ⟨"run.txt"⟩ := ⟨_, rfl⟩
  have hlarge : 0 < Thresholds.standard.large ∧ Thresholds.standard.large ≤ 1e300 := by
    decide +kernel
  have hreport : 0 < Thresholds.standard.report ∧ Thresholds.standard.report ≤ 1e300 := by
    decide +kernel
  obtain ⟨comparison, events, after, hrun, -, -, -, -, -, hfaster, hslower, hchanged, -,
      hdiagnostics⟩ :=
    diff_self_unchanged {} hbase houtput hlarge hreport
  have hentries
      : ((diff ⟨"run.log"⟩ none ⟨"run.txt"⟩ .standard {}
            : Command (StateM FileTree) _).outcome.run .irregular).1.1.toOption.map
          (fun c =>
            (c.report.entries.map fun e => (e.key.benchmark, e.suspicious),
              (c.report.entries.filter (·.suspicious)).map fun e =>
                (e.label, e.baselineTime, e.newTime))) =
          some
            ([("fib", false), ("sort", true), ("walk", false)], [("sort, in, 04", 0, 0)]) := by
    decide +kernel
  rw [hrun] at hentries
  obtain ⟨hentries, hsuspicious⟩ := Prod.mk.inj (Option.some.inj hentries)
  have hlabels := congrArg (List.map fun t => t.1) hsuspicious
  have hreported :=
    congrArg (List.map fun t => Diagnostic.suspiciousTimes t.1 t.2.1 t.2.2) hsuspicious
  rw [List.map_map] at hlabels hreported
  exact ⟨comparison, events, after, hrun, hentries, hfaster, hslower ▸ hlabels, hchanged ▸ hlabels,
    hdiagnostics.trans hreported⟩
end BenchLog
