import Mathlib.Data.List.Basic
import BenchLog.Proofs.Report.Shared
import BenchLog.Report

/-! What the comparison of two data sets consists of.
Its entries are the pairs of points that share a key, and its anomalies are those of the entries
and the keys that are new.
-/

namespace BenchLog

variable {baseline new : DataSet}

-----------------------------------------------------------------------------------------
-- One comparison
-----------------------------------------------------------------------------------------

namespace Entry

/-- A comparison is meaningful if both times are positive. -/
theorem isSuspicious_eq_false_iff {old recent : Float}
    : isSuspicious old recent = false ↔ 0 < old ∧ 0 < recent := by
  simp only [isSuspicious, Bool.not_eq_false', Bool.and_eq_true, decide_eq_true_eq]

theorem percent_of_pos {old recent : Float} (hold : 0 < old) (hrecent : 0 < recent)
    : percent old recent = (recent - old) * 100 / old := by
  rw [percent, isSuspicious_eq_false_iff.mpr ⟨hold, hrecent⟩, if_neg Bool.false_ne_true]

theorem suspicious_ofPoints_iff {k : Key} {p q : Point}
    : (ofPoints k p q).suspicious = false ↔ 0 < p.trimmedAverage ∧ 0 < q.trimmedAverage :=
  isSuspicious_eq_false_iff

theorem anomaly?_eq_some_iff {e : Entry} {d : Diagnostic}
    : e.anomaly? = some d ↔
        e.suspicious = true ∧ d = .suspiciousTimes e.label e.baselineTime e.newTime := by
  rw [anomaly?]
  split
  · next h => simp [h, eq_comm]
  · next h => simp [h]

end Entry

-----------------------------------------------------------------------------------------
-- All comparisons
-----------------------------------------------------------------------------------------

namespace Report

/-- The comparison with the point of the baseline under the same key. -/
def comparison? (baseline : DataSet) (k : Key) (q : Point) : Option Entry :=
  (baseline.get? k).map fun p => Entry.ofPoints k p q

/-- The anomaly that a point of the newer set is met with. -/
def anomaly? (baseline : DataSet) (k : Key) (q : Point) : Option Diagnostic :=
  match comparison? baseline k q with
  | none => some (.newDataPoint q.keyText)
  | some e => e.anomaly?

/-- Every point of the newer set has its entry and its anomaly, by induction along the points. -/
theorem compareEntries_eq (points : KeyMap Point)
    : (compareEntries baseline points).value.1 =
        points.filterMap (fun (k, q) => comparison? baseline k q)
      ∧ (compareEntries baseline points).diagnostics =
          points.filterMap (fun (k, q) => anomaly? baseline k q) := by
  induction points with
  | nil => exact ⟨rfl, rfl⟩
  | cons entry points ih =>
      obtain ⟨k, q⟩ := entry
      obtain ⟨hentries, hdiagnostics⟩ := ih
      rw [compareEntries]
      split
      · next hnone =>
          have hentry : comparison? baseline k q = none := by simp [comparison?, hnone]
          have hanomaly : anomaly? baseline k q = some (.newDataPoint q.keyText) := by
            simp [anomaly?, hentry]
          simp [hentry, hanomaly, hentries, hdiagnostics, Journal.note]
      · next p hsome =>
          have hentry : comparison? baseline k q = some (.ofPoints k p q) := by simp [comparison?, hsome]
          have hanomaly : anomaly? baseline k q = (Entry.ofPoints k p q).anomaly? := by
            simp [anomaly?, hentry]
          refine ⟨by simp [hentry, hentries], ?_⟩
          rw [List.filterMap_cons]
          dsimp only
          rw [hanomaly, ← hdiagnostics]
          simp only [Journal.diagnostics_bind, Journal.diagnostics_pure, List.append_nil,
            Journal.diagnostics_note?]
          cases (Entry.ofPoints k p q).anomaly? with
          | none => rfl
          | some d => rfl

theorem newPoints_compareEntries (points : KeyMap Point)
    : (compareEntries baseline points).value.2 =
        points.keys.filter fun k => (baseline.get? k).isNone := by
  induction points with
  | nil => rfl
  | cons entry points ih =>
      obtain ⟨k, q⟩ := entry
      rw [compareEntries]
      cases hk : baseline.get? k with
      | none => simpa [KeyMap.keys, hk] using ih
      | some p => simpa [KeyMap.keys, hk] using ih

section

variable {thresholds : Thresholds}

theorem entries_compare
    : (compare baseline new thresholds).value.entries =
        new.points.filterMap fun (k, q) => comparison? baseline k q :=
  (compareEntries_eq new.points).1

theorem entries_compare_eq_shared
    : (compare baseline new thresholds).value.entries =
        (shared baseline new).map fun (k, p, q) => Entry.ofPoints k p q := by
  rw [entries_compare, shared, List.map_filterMap]
  apply List.filterMap_congr
  rintro ⟨k, q⟩ -
  change (baseline.get? k).map _ = ((baseline.get? k).map _).map _
  rw [Option.map_map]
  rfl

theorem diagnostics_compare
    : (compare baseline new thresholds).value.diagnostics =
        new.points.filterMap fun (k, q) => anomaly? baseline k q :=
  (compareEntries_eq new.points).2

theorem mem_entries_compare_iff {e : Entry}
    : e ∈ (compare baseline new thresholds).value.entries ↔
        ∃ k p q, baseline.get? k = some p ∧ (k, q) ∈ new.points ∧ e = Entry.ofPoints k p q := by
  rw [entries_compare, List.mem_filterMap]
  constructor
  · rintro ⟨⟨k, q⟩, hmem, he⟩
    obtain ⟨p, hget, rfl⟩ := Option.map_eq_some_iff.mp he
    exact ⟨k, p, q, hget, hmem, rfl⟩
  · rintro ⟨k, p, q, hget, hmem, rfl⟩
    exact ⟨(k, q), hmem, Option.map_eq_some_iff.mpr ⟨p, hget, rfl⟩⟩

theorem newPoints_compare
    : (compare baseline new thresholds).value.newPoints =
        new.keys.filter fun k => (baseline.get? k).isNone :=
  newPoints_compareEntries new.points

/-- Besides the new keys, the anomalies are those of the entries. -/
theorem mem_diagnostics_compare_iff {d : Diagnostic} (hd : ∀ text, d ≠ .newDataPoint text)
    : d ∈ (compare baseline new thresholds).value.diagnostics ↔
        ∃ e ∈ (compare baseline new thresholds).value.entries, e.anomaly? = some d := by
  rw [diagnostics_compare, entries_compare, List.mem_filterMap]
  constructor
  · rintro ⟨⟨k, q⟩, hmem, ha⟩
    dsimp only [anomaly?] at ha
    split at ha
    · cases ha
      exact absurd rfl (hd q.keyText)
    · next e he => exact ⟨e, List.mem_filterMap.mpr ⟨(k, q), hmem, he⟩, ha⟩
  · rintro ⟨e, he, ha⟩
    obtain ⟨⟨k, q⟩, hmem, he⟩ := List.mem_filterMap.mp he
    refine ⟨(k, q), hmem, ?_⟩
    dsimp only at he ⊢
    rw [anomaly?, he]
    exact ha

/-- A comparison has no suspicious entry exactly if the times of all shared keys are positive. -/
theorem unsuspicious_compare_iff
    : (∀ e ∈ (compare baseline new thresholds).value.entries, e.suspicious = false) ↔
        ∀ k p q, baseline.get? k = some p → (k, q) ∈ new.points →
          0 < p.trimmedAverage ∧ 0 < q.trimmedAverage := by
  constructor
  · intro h k p q hget hmem
    exact Entry.suspicious_ofPoints_iff.mp
      (h _ (mem_entries_compare_iff.mpr ⟨k, p, q, hget, hmem, rfl⟩))
  · intro h e he
    obtain ⟨k, p, q, hget, hmem, rfl⟩ := mem_entries_compare_iff.mp he
    exact Entry.suspicious_ofPoints_iff.mpr (h k p q hget hmem)

/-- No suspicious times are reported exactly if no entry is suspicious. -/
theorem suspiciousTimes_not_mem_compare_iff
    : (∀ label old recent,
        .suspiciousTimes label old recent ∉ (compare baseline new thresholds).value.diagnostics) ↔
        ∀ e ∈ (compare baseline new thresholds).value.entries, e.suspicious = false := by
  constructor
  · intro h e he
    apply (Bool.not_eq_true _).mp
    intro hs
    have hanomaly := Entry.anomaly?_eq_some_iff.mpr ⟨hs, rfl⟩
    apply h e.label e.baselineTime e.newTime
    rw [mem_diagnostics_compare_iff (by simp)]
    exact ⟨e, he, hanomaly⟩
  · intro h label old recent hd
    rw [mem_diagnostics_compare_iff (by simp)] at hd
    obtain ⟨e, he, hanomaly⟩ := hd
    obtain ⟨hs, -⟩ := Entry.anomaly?_eq_some_iff.mp hanomaly
    exact Bool.false_ne_true ((h e he).symm.trans hs)

end

end Report

end BenchLog
