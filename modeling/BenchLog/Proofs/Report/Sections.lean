import BenchLog.Proofs.Decimal.Magnitude
import BenchLog.Proofs.Report.Colours

/-! The sections of a comparison and the colours of its rows.
The style of a change is chosen by comparisons of its own. They agree with those that make the slower
and the faster section whatever the thresholds are, so that a row shows to which of the two its entry
belongs. If a large change is at least one that is listed, both sections are part of the changed one.
-/

namespace BenchLog

open Decimal Style

-----------------------------------------------------------------------------------------
-- Colours at the end of a row
-----------------------------------------------------------------------------------------

namespace Style

/-- The row ends with the text, painted in the colour. -/
def EndsIn (colour : Colour) (text row : String) : Prop :=
  ∃ (columns : String) (s : Style), s.colour = some colour ∧ row = columns ++ s.paint text

/-- The last code of an opening is that of the colour. -/
theorem exists_opening_eq {s : Style} {c : Colour} (h : s.colour = some c)
    : ∃ start, s.opening = start ++ ((colourCode c).toList ++ ['m']) := by
  obtain ⟨bold, colour⟩ := s
  obtain rfl : colour = some c := h
  cases bold with
  | false => exact ⟨[escape, '['], by cases c <;> rfl⟩
  | true => exact ⟨[escape, '[', '1', ';'], by cases c <;> rfl⟩

theorem colourCode_inj {c d : Colour} (h : (colourCode c).toList = (colourCode d).toList)
    : c = d := by
  revert h
  cases c <;> cases d <;> decide

theorem length_colourCode (c : Colour)
    : (colourCode c).toList.length = 2 := by
  cases c <;> rfl

/-- A row ends in the colour in which its text was painted and in no other one: before the text and
the reset the two openings end with codes of one length. -/
theorem endsIn_paint_iff {s : Style} {c colour : Colour} (hs : s.colour = some c) {text : String}
    (htext : ∀ d ∈ text.toList, d ≠ escape) (columns : String)
    : EndsIn colour text (columns ++ s.paint text) ↔ colour = c := by
  constructor
  · rintro ⟨columns', s', hs', hrow⟩
    obtain ⟨start, hstart⟩ := exists_opening_eq hs
    obtain ⟨start', hstart'⟩ := exists_opening_eq hs'
    have hlist := congrArg String.toList hrow
    simp only [String.toList_append, paint, String.toList_ofList, reopen_eq_self _ htext, hstart,
      hstart', ← List.append_assoc, List.append_cancel_right_eq] at hlist
    have hlength : (colourCode c).toList.length = (colourCode colour).toList.length := by
      rw [length_colourCode, length_colourCode]
    exact (colourCode_inj (List.append_inj' hlist hlength).2).symm
  · rintro rfl
    exact ⟨columns, s, hs, rfl⟩

end Style

-----------------------------------------------------------------------------------------
-- The sections of an entry
-----------------------------------------------------------------------------------------

namespace Entry

variable {t : Thresholds} {e : Entry}

theorem isSlower_iff
    : e.isSlower t = true ↔ t.large ≤ e.percentDiff :=
  decide_eq_true_iff

/-- What has fallen far enough and is not slower is less than the threshold, since both are
numbers. -/
theorem isFaster_iff
    : e.isFaster t = true ↔ ¬ e.isSlower t = true ∧ e.percentDiff ≤ -t.large := by
  rw [isSlower_iff, isFaster, Bool.and_eq_true, decide_eq_true_iff, decide_eq_true_iff]
  refine and_congr_left fun hle => ?_
  obtain ⟨hpercent, hopposite⟩ := isNaN_of_le hle
  exact (not_le_iff ((isNaN_neg t.large).symm.trans hopposite) hpercent).symm

theorem isChanged_iff
    : e.isChanged t = true ↔ t.report ≤ e.percentDiff ∨ e.percentDiff ≤ -t.report := by
  rw [isChanged, decide_eq_true_iff]
  exact le_abs_iff

/-- The change is a large one in either direction. -/
def isLarge (t : Thresholds) (e : Entry) : Bool :=
  e.isSlower t || e.isFaster t

theorem isChanged_of_isLarge (ht : t.report ≤ t.large) (h : e.isLarge t = true)
    : e.isChanged t = true := by
  rw [isChanged_iff]
  rcases Bool.or_eq_true_iff.mp h with hslower | hfaster
  · exact Or.inl (le_le_trans ht (isSlower_iff.mp hslower))
  · exact Or.inr (le_le_trans (isFaster_iff.mp hfaster).2 (neg_le_neg_of_le ht))

end Entry

-----------------------------------------------------------------------------------------
-- The sections of a report
-----------------------------------------------------------------------------------------

namespace Report

variable {r : Report} {e : Entry}

/-- The comparisons that choose the style are those that make the sections. -/
theorem colour_changeStyle (t : Thresholds) (e : Entry)
    : (changeStyle t e).colour =
        some
          (if e.suspicious then .yellow
            else if e.isSlower t then .red
            else if e.isFaster t then .green
            else .yellow) := by
  unfold changeStyle
  by_cases hsuspicious : e.suspicious = true
  · rw [if_pos hsuspicious, if_pos hsuspicious]
  · rw [if_neg hsuspicious, if_neg hsuspicious]
    by_cases hslower : e.isSlower t = true
    · rw [if_pos (Entry.isSlower_iff.mp hslower), if_pos hslower]
    · rw [if_neg fun hle => hslower (Entry.isSlower_iff.mpr hle), if_neg hslower]
      by_cases hfaster : e.isFaster t = true
      · rw [if_pos (Entry.isFaster_iff.mp hfaster).2, if_pos hfaster]
      · rw [if_neg fun hle => hfaster (Entry.isFaster_iff.mpr ⟨hslower, hle⟩), if_neg hfaster]

theorem mem_slower_iff
    : e ∈ r.slower ↔ e ∈ r.entries ∧ e.isSlower r.thresholds = true :=
  List.mem_filter

theorem mem_faster_iff
    : e ∈ r.faster ↔ e ∈ r.entries ∧ e.isFaster r.thresholds = true :=
  List.mem_filter

theorem disjoint_slower_faster (r : Report)
    : r.slower.Disjoint r.faster := by
  intro e hslower hfaster
  exact (Entry.isFaster_iff.mp (mem_faster_iff.mp hfaster).2).1 (mem_slower_iff.mp hslower).2

/-- The entries with a large change in either direction. -/
def large (r : Report) : List Entry :=
  r.entries.filter (Entry.isLarge r.thresholds)

theorem length_large (r : Report)
    : r.large.length = r.slower.length + r.faster.length := by
  have hslower : r.large.filter (Entry.isSlower r.thresholds) = r.slower := by
    rw [large, List.filter_filter]
    apply List.filter_congr
    intro e _
    rw [Entry.isLarge, Bool.and_or_distrib_left, Bool.and_self, Bool.or_eq_left_iff_imp]
    exact fun h => (Bool.and_eq_true_iff.mp h).1
  have hfaster : r.large.filter (fun e => !e.isSlower r.thresholds) = r.faster := by
    rw [large, List.filter_filter]
    apply List.filter_congr
    intro e _
    rw [Entry.isLarge, Bool.and_or_distrib_left, Bool.not_and_self, Bool.false_or,
      Bool.and_eq_right_iff_imp, Bool.not_eq_true']
    exact fun h => (Bool.not_eq_true _).mp (Entry.isFaster_iff.mp h).1
  rw [← hslower, ← hfaster]
  exact List.length_eq_length_filter_add _

theorem large_sublist_changed (h : r.thresholds.report ≤ r.thresholds.large)
    : r.large.Sublist r.changed := by
  have hlarge : r.large = r.changed.filter (Entry.isLarge r.thresholds) := by
    rw [changed, List.filter_filter]
    apply List.filter_congr
    intro e _
    rw [Bool.eq_self_and]
    exact Entry.isChanged_of_isLarge h
  rw [hlarge]
  exact List.filter_sublist

-----------------------------------------------------------------------------------------
-- The rows of a report
-----------------------------------------------------------------------------------------

/-- The row of an entry as a terminal is sent it with colours. -/
def colouredRow (t : Thresholds) (e : Entry) : String :=
  renderRow true (terminalRow t e)

theorem endsIn_colouredRow_iff {t : Thresholds} {colour : Colour}
    : EndsIn colour (changeText e) (colouredRow t e) ↔
        (changeStyle t e).colour = some colour := by
  have hstyle := colour_changeStyle t e
  have hshown : ∀ c ∈ (changeText e).toList, c ≠ escape :=
    fun c hc => (isShown_changeText e c hc).ne_escape
  rw [colouredRow, renderRow, terminalRow, List.map_cons, List.map_singleton, String.join_cons,
    String.join_cons, String.join_nil, String.append_empty, hstyle, Option.some.injEq, eq_comm]
  exact endsIn_paint_iff hstyle hshown _

/-- A row is red for what is slower and green for what is faster, and neither if the times cannot
be compared. -/
theorem endsIn_colouredRow (h : e ∈ r.entries)
    : (e.suspicious = false →
          (EndsIn .red (changeText e) (colouredRow r.thresholds e) ↔ e ∈ r.slower)
          ∧ (EndsIn .green (changeText e) (colouredRow r.thresholds e) ↔ e ∈ r.faster))
      ∧ (e.suspicious = true →
          ¬ EndsIn .red (changeText e) (colouredRow r.thresholds e)
          ∧ ¬ EndsIn .green (changeText e) (colouredRow r.thresholds e)) := by
  rw [endsIn_colouredRow_iff, endsIn_colouredRow_iff, colour_changeStyle, mem_slower_iff,
    mem_faster_iff, and_iff_right h, and_iff_right h]
  have hneither := @Entry.isFaster_iff r.thresholds e
  refine ⟨fun hsuspicious => ?_, fun hsuspicious => ?_⟩
  · rw [hsuspicious]
    by_cases hslower : e.isSlower r.thresholds = true
    · simp [hslower, hneither]
    · by_cases hfaster : e.isFaster r.thresholds = true
      · simp [hslower, hfaster]
      · simp [hslower, hfaster]
  · simp [hsuspicious]

theorem take_drop_of_eq {α : Type} {n : Nat} {all before found after : List α}
    (hall : all = before ++ found ++ after) (hlength : before.length = n)
    : (all.drop n).take found.length = found := by
  rw [hall, ← hlength, List.append_assoc, List.drop_left, List.take_left]

/-- Where the rows of the changed entries stand, on the screen and in the text. -/
theorem rows_of_changed (r : Report)
    : ((r.terminalRows.map (renderRow true)).drop 3).take r.changed.length =
          r.changed.map (colouredRow r.thresholds)
      ∧ (r.textLines.drop (13 + r.slower.length + r.faster.length)).take r.changed.length =
          r.changed.map textRow := by
  constructor
  · have hrow : renderRow true ∘ terminalRow r.thresholds = colouredRow r.thresholds := by
      funext e
      rw [Function.comp_apply, colouredRow]
    have hrows
        : r.terminalRows.map (renderRow true) =
            [[], r.terminalHeader, [.plain ruler]].map (renderRow true)
              ++ r.changed.map (colouredRow r.thresholds)
              ++ [[], [.plain ruler], r.summaryRow, []].map (renderRow true) := by
      rw [terminalRows, List.map_append, List.map_append, List.map_map, hrow]
    rw [← List.length_map (colouredRow r.thresholds)]
    exact take_drop_of_eq hrows (by rw [List.length_map]; rfl)
  · have hlines
        : r.textLines =
            ([r.slowerTitle, "", r.columnNames] ++ r.slower.map textRow ++ ["", ""]
                ++ [r.fasterTitle, "", r.columnNames] ++ r.faster.map textRow ++ ["", ""]
                ++ [r.changedTitle, "", r.columnNames])
              ++ r.changed.map textRow
              ++ (["", ""] ++ [allTitle, r.columnNames] ++ r.entries.map textRow ++ [""]) := by
      simp only [textLines, sectionLines, List.append_assoc]
    rw [← List.length_map textRow]
    apply take_drop_of_eq hlines
    simp only [List.length_append, List.length_map, List.length_cons, List.length_nil]
    omega

/-- What is slower and what is faster are different entries, and the row of an entry shows which of
them it is. If a large change is at least one that is listed, each large change of the summary has a
row of its own on the screen and in the third section of the text. -/
theorem colours_show_sections (r : Report)
    : let row := colouredRow r.thresholds
      let screen := r.terminalRows.map (renderRow true)
      let screenRows := (screen.drop 3).take r.changed.length
      let sectionRows :=
        (r.textLines.drop (13 + r.slower.length + r.faster.length)).take r.changed.length
      (r.slower.Sublist r.entries ∧ r.faster.Sublist r.entries ∧ r.changed.Sublist r.entries)
      ∧ r.slower.Disjoint r.faster
      ∧ r.terminal true = String.join (screen.map (· ++ "\n"))
      ∧ screen.length = 7 + r.changed.length
      ∧ screenRows = r.changed.map row
      ∧ sectionRows = r.changed.map textRow
      ∧ (∀ e ∈ r.changed,
          (e.suspicious = false →
              (EndsIn .red (changeText e) (row e) ↔ e ∈ r.slower)
              ∧ (EndsIn .green (changeText e) (row e) ↔ e ∈ r.faster))
          ∧ (e.suspicious = true →
              ¬ EndsIn .red (changeText e) (row e) ∧ ¬ EndsIn .green (changeText e) (row e)))
      ∧ (r.thresholds.report ≤ r.thresholds.large →
          r.large.length = r.slower.length + r.faster.length
          ∧ r.large.Sublist r.changed
          ∧ (r.large.map row).Sublist screenRows
          ∧ (r.large.map textRow).Sublist sectionRows) := by
  intro row screen screenRows sectionRows
  have hscreen : screenRows = r.changed.map row := (rows_of_changed r).1
  have hsection : sectionRows = r.changed.map textRow := (rows_of_changed r).2
  refine ⟨⟨List.filter_sublist, List.filter_sublist, List.filter_sublist⟩, disjoint_slower_faster r,
    ?_, ?_, hscreen, hsection, fun e he => ?_, fun hle => ?_⟩
  · rw [terminal, List.map_map]
    rfl
  · simp only [screen, terminalRows, List.map_append, List.length_append, List.length_map,
      List.length_cons, List.length_nil]
    omega
  · exact endsIn_colouredRow (List.mem_of_mem_filter he)
  · have hlarge := large_sublist_changed hle
    exact ⟨length_large r, hlarge, hscreen.symm ▸ hlarge.map row, hsection.symm ▸ hlarge.map textRow⟩

/-- A report with changes at its thresholds, one that is no number and one that is infinite. -/
def bordering : Report where
  baselineDescription := "main"
  newDescription := "topic"
  thresholds := ⟨2, 2⟩
  entries :=
    [⟨⟨"fib", "", 2⟩, "fib, , 02", 100, 102, 2, false⟩,
      ⟨⟨"fib", "", 4⟩, "fib, , 04", 1 / 0, 1 / 0, 0 / 0, false⟩,
      ⟨⟨"sort", "", 4⟩, "sort, , 04", 100, 98, -2, false⟩,
      ⟨⟨"spin", "", 4⟩, "spin, , 04", 0, 1, 1e300, true⟩,
      ⟨⟨"walk", "", 4⟩, "walk, , 04", 1 / 0, 1, -1 / 0, false⟩]
  newPoints := []
  diagnostics := []

theorem colours_show_sections_bordering
    : let risen : Entry := ⟨⟨"fib", "", 2⟩, "fib, , 02", 100, 102, 2, false⟩
      let doubtful : Entry := ⟨⟨"spin", "", 4⟩, "spin, , 04", 0, 1, 1e300, true⟩
      bordering.thresholds.report ≤ bordering.thresholds.large
      ∧ risen ∈ bordering.changed
      ∧ doubtful ∈ bordering.changed
      ∧ EndsIn .red "+2.00%" (colouredRow ⟨2, 2⟩ risen)
      ∧ ¬ EndsIn .red "suspicious" (colouredRow ⟨2, 2⟩ doubtful)
      ∧ bordering.large.map (·.label) = ["fib, , 02", "sort, , 04", "spin, , 04", "walk, , 04"]
      ∧ bordering.large.length = 2 + 2
      ∧ bordering.large.Sublist bordering.changed := by
  intro risen doubtful
  have hle : bordering.thresholds.report ≤ bordering.thresholds.large := by decide +kernel
  have hrisen : risen ∈ bordering.changed :=
    List.mem_filter.mpr ⟨.head _, by decide +kernel⟩
  have hslower : risen ∈ bordering.slower :=
    List.mem_filter.mpr ⟨.head _, by decide +kernel⟩
  have hdoubtful : doubtful ∈ bordering.changed :=
    List.mem_filter.mpr ⟨.tail _ (.tail _ (.tail _ (.head _))), by decide +kernel⟩
  have hchange : changeText risen = "+2.00%" := by decide +kernel
  obtain ⟨-, -, -, -, -, -, hcolours, hlarge⟩ := colours_show_sections bordering
  obtain ⟨hlength, hsublist, -⟩ := hlarge hle
  refine ⟨hle, hrisen, hdoubtful, ?_, ((hcolours doubtful hdoubtful).2 rfl).1, by decide +kernel,
    hlength.trans (by decide +kernel), hsublist⟩
  exact hchange ▸ (((hcolours risen hrisen).1 rfl).1).mpr hslower

end Report

end BenchLog
