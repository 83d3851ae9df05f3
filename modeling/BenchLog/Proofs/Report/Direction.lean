import BenchLog.Proofs.Decimal.Sign
import BenchLog.Proofs.Report.Compared

/-! The direction of a change.
Compared the other way round, two data sets share the same keys and every comparison has its times
exchanged. The sign of the change in percent survives rounding and overflow, so that what is listed
as slower did become slower and what is listed as faster did become faster.
-/

namespace BenchLog

open Decimal

-----------------------------------------------------------------------------------------
-- One comparison
-----------------------------------------------------------------------------------------

namespace Entry

theorem isSuspicious_comm (old recent : Float)
    : isSuspicious old recent = isSuspicious recent old := by
  rw [isSuspicious, isSuspicious, Bool.and_comm]

/-- The change of two positive times has the sign of their exact difference, if it has one. -/
theorem lt_of_percent {old recent : Float} (h : isSuspicious old recent = false)
    : (0 < percent old recent → old < recent) ∧ (percent old recent < 0 → recent < old) := by
  obtain ⟨hold, hrecent⟩ := isSuspicious_eq_false_iff.mp h
  have hhundred : (0 : Float) < 100 := by decide +kernel
  rw [percent_of_pos hold hrecent, zero_lt_iff_sign?, lt_zero_iff_sign?]
  constructor
  · intro hsign
    exact (sign_of_sub hrecent hold (sign?_eq_of_mul hhundred (sign?_eq_of_div hold hsign))).1 rfl
  · intro hsign
    exact (sign_of_sub hrecent hold (sign?_eq_of_mul hhundred (sign?_eq_of_div hold hsign))).2 rfl

variable {t : Thresholds} {k : Key} {p q : Point}

theorem lt_of_isSlower (ht : 0 < t.large) (hsuspicious : (ofPoints k p q).suspicious = false)
    (h : (ofPoints k p q).isSlower t = true)
    : p.trimmedAverage < q.trimmedAverage := by
  have hle : t.large ≤ percent p.trimmedAverage q.trimmedAverage := of_decide_eq_true h
  exact (lt_of_percent hsuspicious).1 (lt_le_trans ht hle)

/-- A suspicious entry is not among the faster ones, since its change is far above zero. -/
theorem lt_of_isFaster (ht : 0 < t.large) (h : (ofPoints k p q).isFaster t = true)
    : (ofPoints k p q).suspicious = false ∧ q.trimmedAverage < p.trimmedAverage := by
  obtain ⟨-, h⟩ := Bool.and_eq_true_iff.mp h
  have hle : percent p.trimmedAverage q.trimmedAverage ≤ -t.large := of_decide_eq_true h
  have hneg := le_lt_trans hle (neg_lt_zero_of_zero_lt ht)
  have hsuspicious : isSuspicious p.trimmedAverage q.trimmedAverage = false := by
    by_contra hs
    rw [percent, if_pos ((Bool.not_eq_false _).mp hs)] at hneg
    exact absurd hneg (by decide +kernel)
  exact ⟨hsuspicious, (lt_of_percent hsuspicious).2 hneg⟩

end Entry

-----------------------------------------------------------------------------------------
-- Shared keys
-----------------------------------------------------------------------------------------

namespace Report

variable {baseline new : DataSet}

/-- Entries of one key in both directions have the same two times, exchanged. -/
theorem exchanged_of_key_eq (hbaseline : baseline.points.Ascending) (hnew : new.points.Ascending)
    {thresholds : Thresholds} {e e' : Entry}
    (he : e ∈ (compare baseline new thresholds).value.entries)
    (he' : e' ∈ (compare new baseline thresholds).value.entries) (hkey : e'.key = e.key)
    : ∃ k p q, e = .ofPoints k p q ∧ e' = .ofPoints k q p := by
  obtain ⟨k, p, q, hp, hq, rfl⟩ := mem_entries_compare_iff.mp he
  obtain ⟨l, q', p', hq', hp', rfl⟩ := mem_entries_compare_iff.mp he'
  obtain rfl : l = k := hkey
  cases hq'.symm.trans (hnew.get?_of_mem hq)
  cases hp.symm.trans (hbaseline.get?_of_mem hp')
  exact ⟨l, p, q, rfl, rfl⟩

/-- Compared the other way round, the times are exchanged and nothing else; what is slower or
faster did become so, and is not so in both directions. -/
theorem direction_of_compare (hbaseline : baseline.points.Ascending)
    (hnew : new.points.Ascending) {thresholds : Thresholds} (hlarge : 0 < thresholds.large)
    : let forth := (compare baseline new thresholds).value
      let back := (compare new baseline thresholds).value
      forth.entries.map (fun e => (e.key, e.baselineTime, e.newTime, e.suspicious)) =
          back.entries.map (fun e => (e.key, e.newTime, e.baselineTime, e.suspicious))
        ∧ (∀ e ∈ forth.slower, e.suspicious = false → e.baselineTime < e.newTime)
        ∧ (∀ e ∈ forth.faster, e.newTime < e.baselineTime)
        ∧ (∀ e ∈ forth.slower, e.suspicious = false → ∀ e' ∈ back.slower, e'.key ≠ e.key)
        ∧ ∀ e ∈ forth.faster, ∀ e' ∈ back.faster, e'.key ≠ e.key := by
  intro forth back
  refine ⟨?_, ?_, ?_, ?_, ?_⟩
  · rw [entries_compare_eq_shared, entries_compare_eq_shared, shared_swap hbaseline hnew,
      KeyMap.mapValues, List.map_map, List.map_map, List.map_map]
    apply List.map_congr_left
    rintro ⟨k, p, q⟩ -
    simp only [Function.comp_apply, Entry.ofPoints, Prod.swap,
      Entry.isSuspicious_comm q.trimmedAverage]
  · intro e he hsuspicious
    obtain ⟨he, hslower⟩ := List.mem_filter.mp he
    obtain ⟨k, p, q, -, -, rfl⟩ := mem_entries_compare_iff.mp he
    exact Entry.lt_of_isSlower hlarge hsuspicious hslower
  · intro e he
    obtain ⟨he, hfaster⟩ := List.mem_filter.mp he
    obtain ⟨k, p, q, -, -, rfl⟩ := mem_entries_compare_iff.mp he
    exact (Entry.lt_of_isFaster hlarge hfaster).2
  · intro e he hsuspicious e' he' hkey
    obtain ⟨he, hslower⟩ := List.mem_filter.mp he
    obtain ⟨he', hslower'⟩ := List.mem_filter.mp he'
    obtain ⟨k, p, q, rfl, rfl⟩ := exchanged_of_key_eq hbaseline hnew he he' hkey
    have hsuspicious' : (Entry.ofPoints k q p).suspicious = false :=
      (Entry.isSuspicious_comm _ _).trans hsuspicious
    exact not_gt_of_lt (Entry.lt_of_isSlower hlarge hsuspicious hslower)
      (Entry.lt_of_isSlower hlarge hsuspicious' hslower')
  · intro e he e' he' hkey
    obtain ⟨he, hfaster⟩ := List.mem_filter.mp he
    obtain ⟨he', hfaster'⟩ := List.mem_filter.mp he'
    obtain ⟨k, p, q, rfl, rfl⟩ := exchanged_of_key_eq hbaseline hnew he he' hkey
    exact not_gt_of_lt (Entry.lt_of_isFaster hlarge hfaster).2
      (Entry.lt_of_isFaster hlarge hfaster').2

/-- A run of three benchmarks with a time that is zero and one that is infinite. -/
def earlierRun : DataSet where
  description := "earlier"
  points :=
    [(⟨"fib", "", 2⟩, .single "fib" 2 2 "" ""), (⟨"sort", "", 2⟩, .single "sort" 2 0 "" ""),
      (⟨"walk", "", 2⟩, .single "walk" 2 (1 / 0) "" "")]

/-- A later run of the same benchmarks and one more; what was infinite is so no longer. -/
def laterRun : DataSet where
  description := "later"
  points :=
    [(⟨"fib", "", 2⟩, .single "fib" 2 3 "" ""), (⟨"sort", "", 2⟩, .single "sort" 2 1 "" ""),
      (⟨"walk", "", 2⟩, .single "walk" 2 4 "" ""), (⟨"zip", "", 2⟩, .single "zip" 2 1 "" "")]

theorem direction_of_compare_laterRun
    : (compare earlierRun laterRun .standard).value.slower.map Entry.key =
          [⟨"fib", "", 2⟩, ⟨"sort", "", 2⟩]
        ∧ (∀ e ∈ (compare earlierRun laterRun .standard).value.slower,
            e.suspicious = false → e.baselineTime < e.newTime)
        ∧ (compare earlierRun laterRun .standard).value.entries.map
              (fun e => (e.key, e.baselineTime, e.newTime, e.suspicious)) =
            (compare laterRun earlierRun .standard).value.entries.map
              (fun e => (e.key, e.newTime, e.baselineTime, e.suspicious)) := by
  have hearlier : earlierRun.points.Ascending := by
    unfold KeyMap.Ascending
    decide +kernel
  have hlater : laterRun.points.Ascending := by
    unfold KeyMap.Ascending
    decide +kernel
  have hlarge : 0 < Thresholds.standard.large := by decide +kernel
  obtain ⟨hexchanged, hslower, -⟩ := direction_of_compare hearlier hlater hlarge
  exact ⟨by decide +kernel, hslower, hexchanged⟩

end Report

end BenchLog
