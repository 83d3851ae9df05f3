import BenchLog.Proofs.Report.Rows
import BenchLog.Proofs.Text.Lines

/-! The layout of the two reports of a comparison.
Every row of either report is one line, so that the counts of the entries in the sections say at
which lines they stand; the entries that the terminal lists are those of the third section of the
text.
-/

namespace BenchLog

-----------------------------------------------------------------------------------------
-- Lines
-----------------------------------------------------------------------------------------

/-- A text that is one line by itself: it has no feed in it and no return at its end. -/
def Text.IsLine (s : String) : Prop :=
  '\n' ∉ s.toList ∧ s.toList.getLast? ≠ some '\r'

theorem isLine_of_isShown {s : String} (h : ∀ c ∈ s.toList, IsShown c)
    : Text.IsLine s :=
  ⟨fun hc => (h _ hc).ne_feed rfl, fun hc => (h _ (List.mem_of_mem_getLast? hc)).ne_return rfl⟩

/-- Before the end of a line that is shown there may be returns. -/
theorem isLine_append {s t : String} (h : ∀ c ∈ (s ++ t).toList, c ≠ '\n')
    (ht : ∀ c ∈ t.toList, IsShown c) (hne : t.toList ≠ [])
    : Text.IsLine (s ++ t) := by
  obtain ⟨-, hlast⟩ := isLine_of_isShown ht
  refine ⟨fun hc => h _ hc rfl, ?_⟩
  rwa [String.toList_append, List.getLast?_append_of_ne_nil _ hne]

theorem toList_alignRight_ne_nil {width : Nat} (h : 0 < width) (s : String)
    : (Text.alignRight width s).toList ≠ [] := by
  intro hnil
  have hlength := congrArg List.length hnil
  simp only [Text.alignRight, Text.filling, String.toList_append, String.toList_ofList,
    List.length_append, List.length_replicate, String.length_toList, List.length_nil] at hlength
  omega

namespace Report

variable {r : Report}

theorem changeText_ne_nil (e : Entry)
    : (changeText e).toList ≠ [] := by
  unfold changeText
  split
  · simp
  · split
    · simp
    · split <;> simp

-----------------------------------------------------------------------------------------
-- The text
-----------------------------------------------------------------------------------------

theorem isLine_textRow {e : Entry} (h : ∀ c ∈ e.label.toList, c ≠ '\n')
    : Text.IsLine (textRow e) := by
  have hend : ∀ c ∈ (Text.alignRight 8 (Decimal.general e.percentDiff)).toList, IsShown c :=
    forall_alignRight (fun _ hc => hc) (isShown_general _) 8
  exact isLine_append (forall_textRow (fun _ hc => hc.ne_feed) h) hend
    (toList_alignRight_ne_nil (by decide) _)

theorem isLine_columnNames (h : r.Texts (· ≠ '\n'))
    : Text.IsLine r.columnNames := by
  have hend : ∀ c ∈ (Text.alignRight 8 "Percent Diff").toList, IsShown c :=
    isShown_of_all (by decide)
  exact isLine_append (forall_columnNames (fun _ hc => hc.ne_feed) h) hend
    (toList_alignRight_ne_nil (by decide) _)

theorem isLine_title {opening closing : String} (hopening : ∀ c ∈ opening.toList, IsShown c)
    (hclosing : ∀ c ∈ closing.toList, IsShown c) (x : Float)
    : Text.IsLine (opening ++ Decimal.fixed 6 x ++ closing) := by
  apply isLine_of_isShown
  simp only [String.toList_append, List.forall_mem_append, and_assoc]
  exact ⟨hopening, isShown_fixed 6 x, hclosing⟩

theorem length_sectionLines (heading : List String) (entries : List Entry)
    : (sectionLines heading entries).length = heading.length + entries.length := by
  rw [sectionLines, List.length_append, List.length_map]

theorem isLine_sectionLines {heading : List String} {entries : List Entry}
    (hheading : ∀ line ∈ heading, Text.IsLine line)
    (hentries : ∀ e ∈ entries, ∀ c ∈ e.label.toList, c ≠ '\n')
    : ∀ line ∈ sectionLines heading entries, Text.IsLine line := by
  intro line hline
  rcases List.mem_append.mp hline with hline | hline
  · exact hheading line hline
  · obtain ⟨e, he, rfl⟩ := List.mem_map.mp hline
    exact isLine_textRow (hentries e he)

/-- The lines of the text come back when it is split. -/
theorem lines_text (h : r.Texts (· ≠ '\n'))
    : Text.lines r.text = r.textLines := by
  have hempty : Text.IsLine "" := isLine_of_isShown (by simp)
  have hgap : ∀ line ∈ ["", ""], Text.IsLine line := by
    simp only [List.forall_mem_cons, hempty, List.not_mem_nil, IsEmpty.forall_iff, implies_true,
      and_true]
  have hheading
      : ∀ {title}, Text.IsLine title →
          ∀ line ∈ [title, "", r.columnNames], Text.IsLine line := by
    intro title htitle
    simp only [List.forall_mem_cons, List.not_mem_nil, IsEmpty.forall_iff, implies_true, and_true]
    exact ⟨htitle, hempty, isLine_columnNames h⟩
  have hentries
      : ∀ p : Entry → Bool, ∀ e ∈ r.entries.filter p, ∀ c ∈ e.label.toList, c ≠ '\n' :=
    fun p e he => h.labels e (List.mem_of_mem_filter he)
  apply Text.lines_join_eq
  intro line hline
  rw [textLines] at hline
  simp only [List.mem_append, or_assoc] at hline
  rcases hline with hslower | hline | hfaster | hline | hchanged | hline | hall | hline
  · refine isLine_sectionLines (hheading ?_) (hentries _) line hslower
    exact isLine_title (isShown_of_all (by decide)) (isShown_of_all (by decide)) _
  · exact hgap line hline
  · refine isLine_sectionLines (hheading ?_) (hentries _) line hfaster
    exact isLine_title (isShown_of_all (by decide)) (isShown_of_all (by decide)) _
  · exact hgap line hline
  · refine isLine_sectionLines (hheading ?_) (hentries _) line hchanged
    exact isLine_title (isShown_of_all (by decide)) (isShown_of_all (by decide)) _
  · exact hgap line hline
  · refine isLine_sectionLines ?_ h.labels line hall
    simp only [List.forall_mem_cons, List.not_mem_nil, IsEmpty.forall_iff, implies_true, and_true]
    exact ⟨isLine_of_isShown (isShown_of_all (by decide)), isLine_columnNames h⟩
  · obtain rfl := List.mem_singleton.mp hline
    exact hempty

-----------------------------------------------------------------------------------------
-- The screen
-----------------------------------------------------------------------------------------

theorem forall_renderRow {P : Char → Prop} {row : List Span}
    (h : ∀ span ∈ row, ∀ c ∈ span.text.toList, P c)
    : ∀ c ∈ (renderRow false row).toList, P c := by
  intro c hc
  rw [renderRow_bare, String.toList_join, List.flatMap_map] at hc
  obtain ⟨span, hspan, hc⟩ := List.mem_flatMap.mp hc
  exact h span hspan c hc

theorem isLine_terminalHeader (h : r.Texts (· ≠ '\n'))
    : Text.IsLine (renderRow false r.terminalHeader) := by
  have hend : ∀ c ∈ (Text.alignRight 12 "Change").toList, IsShown c :=
    isShown_of_all (by decide)
  have hall := forall_renderRow (forall_terminalHeader (fun _ hc => hc.ne_feed) h)
  rw [renderRow_bare, terminalHeader, Span.bold, List.map_singleton, String.join_cons,
    String.join_nil, String.append_empty] at hall ⊢
  exact isLine_append hall hend (toList_alignRight_ne_nil (by decide) _)

theorem isLine_terminalRow (t : Thresholds) {e : Entry} (h : ∀ c ∈ e.label.toList, c ≠ '\n')
    : Text.IsLine (renderRow false (terminalRow t e)) := by
  have hall := forall_renderRow (forall_terminalRow (fun _ hc => hc.ne_feed) t h)
  rw [renderRow_bare, terminalRow, Span.plain, List.map_cons, List.map_singleton,
    String.join_cons, String.join_cons, String.join_nil, String.append_empty] at hall ⊢
  exact isLine_append hall (isShown_changeText e) (changeText_ne_nil e)

/-- The rows on the screen come back when it is split. -/
theorem lines_terminal (h : r.Texts (· ≠ '\n'))
    : Text.lines (r.terminal false) = r.terminalRows.map (renderRow false) := by
  have hempty : Text.IsLine (renderRow false []) := isLine_of_isShown (by simp [renderRow])
  have hruler : Text.IsLine (renderRow false [.plain ruler]) := by
    apply isLine_of_isShown (forall_renderRow _)
    exact List.forall_mem_singleton.mpr (isShown_of_all (by decide))
  have hsummary : Text.IsLine (renderRow false r.summaryRow) :=
    isLine_of_isShown (forall_renderRow (forall_summaryRow (fun _ hc => hc) r))
  have hrows : ∀ row ∈ r.terminalRows, Text.IsLine (renderRow false row) := by
    intro row hrow
    simp only [terminalRows, List.mem_append, List.mem_cons, List.not_mem_nil, or_false,
      List.mem_map] at hrow
    rcases hrow with ((rfl | rfl | rfl) | ⟨e, he, rfl⟩) | rfl | rfl | rfl | rfl
    · exact hempty
    · exact isLine_terminalHeader h
    · exact hruler
    · exact isLine_terminalRow _ (h.labels e (List.mem_of_mem_filter he))
    · exact hempty
    · exact hruler
    · exact hsummary
    · exact hempty
  have hlines := Text.lines_join_eq (List.forall_mem_map.mpr hrows)
  rwa [List.map_map] at hlines

-----------------------------------------------------------------------------------------
-- Where the rows stand
-----------------------------------------------------------------------------------------

theorem prefix_drop_append {α : Type} {n : Nat} {before : List α} (h : before.length = n)
    (found after : List α)
    : found <+: (before ++ found ++ after).drop n := by
  rw [← h, List.append_assoc, List.drop_left]
  exact List.prefix_append _ _

/-- Where the sections of the text begin, and how many lines there are in all. -/
theorem sections_textLines (r : Report)
    : let slower := r.slower.length
      let faster := r.faster.length
      let changed := r.changed.length
      r.textLines.length = 18 + slower + faster + changed + r.entries.length
      ∧ sectionLines [r.slowerTitle, "", r.columnNames] r.slower <+: r.textLines
      ∧ sectionLines [r.fasterTitle, "", r.columnNames] r.faster <+: r.textLines.drop (5 + slower)
      ∧ sectionLines [r.changedTitle, "", r.columnNames] r.changed
          <+: r.textLines.drop (10 + slower + faster)
      ∧ sectionLines [allTitle, r.columnNames] r.entries
          <+: r.textLines.drop (15 + slower + faster + changed) := by
  intro slower faster changed
  rw [textLines]
  refine ⟨?_, ?_, ?_, ?_, ?_⟩
  · simp only [List.length_append, length_sectionLines, List.length_cons, List.length_nil]
    omega
  · simp only [List.append_assoc]
    exact List.prefix_append _ _
  · rw [List.append_assoc, List.append_assoc, List.append_assoc, List.append_assoc]
    apply prefix_drop_append
    simp only [List.length_append, length_sectionLines, List.length_cons, List.length_nil]
    omega
  · rw [List.append_assoc, List.append_assoc]
    apply prefix_drop_append
    simp only [List.length_append, length_sectionLines, List.length_cons, List.length_nil]
    omega
  · apply prefix_drop_append
    simp only [List.length_append, length_sectionLines, List.length_cons, List.length_nil]
    omega

theorem renderRow_summaryRow (r : Report)
    : renderRow false r.summaryRow =
        "Summary: " ++ toString r.slower.length ++ " slower, " ++ toString r.faster.length
          ++ " faster, " ++ toString r.changed.length ++ " changed of "
          ++ toString r.entries.length ++ " compared, " ++ toString r.newPoints.length
          ++ " new" := by
  apply String.toList_injective
  simp only [renderRow_bare, summaryRow, Span.bold, Span.plain, Span.coloured, List.map_cons,
    List.map_nil, String.toList_join, List.flatMap_cons, List.flatMap_nil, String.toList_append,
    List.append_assoc, List.append_nil]
  rfl

/-- The numbers of the entries in the sections say at which lines of the text the sections begin.
The rows on the screen are for the entries of its third section, and the numbers stand below. -/
theorem sections_of_lines {r : Report} (h : r.Texts (· ≠ '\n'))
    : let lines := Text.lines r.text
      let screen := Text.lines (r.terminal false)
      let slower := r.slower.length
      let faster := r.faster.length
      let changed := r.changed.length
      (lines.length = 18 + slower + faster + changed + r.entries.length
        ∧ sectionLines [r.slowerTitle, "", r.columnNames] r.slower <+: lines
        ∧ sectionLines [r.fasterTitle, "", r.columnNames] r.faster <+: lines.drop (5 + slower)
        ∧ sectionLines [r.changedTitle, "", r.columnNames] r.changed
            <+: lines.drop (10 + slower + faster)
        ∧ sectionLines [allTitle, r.columnNames] r.entries
            <+: lines.drop (15 + slower + faster + changed))
      ∧ (r.slower.Sublist r.entries ∧ r.faster.Sublist r.entries ∧ r.changed.Sublist r.entries)
      ∧ screen.length = 7 + changed
      ∧ screen =
          ["", renderRow false r.terminalHeader, ruler]
            ++ r.changed.map (fun e => renderRow false (terminalRow r.thresholds e))
            ++ ["", ruler,
              "Summary: " ++ toString slower ++ " slower, " ++ toString faster ++ " faster, "
                ++ toString changed ++ " changed of " ++ toString r.entries.length
                ++ " compared, " ++ toString r.newPoints.length ++ " new",
              ""] := by
  intro lines screen slower faster changed
  have hlines : lines = r.textLines := lines_text h
  have hscreen : screen = r.terminalRows.map (renderRow false) := lines_terminal h
  have hruler : renderRow false [.plain ruler] = ruler := by
    rw [renderRow_bare, List.map_singleton, String.join_cons, String.join_nil,
      String.append_empty]
    rfl
  have hempty : renderRow false [] = "" := renderRow_bare []
  refine ⟨?_, ⟨List.filter_sublist, List.filter_sublist, List.filter_sublist⟩, ?_, ?_⟩
  · rw [hlines]
    exact sections_textLines r
  · rw [hscreen]
    simp only [terminalRows, List.map_append, List.length_append, List.length_map,
      List.length_cons, List.length_nil]
    omega
  · rw [hscreen, ← renderRow_summaryRow]
    simp only [terminalRows, List.map_append, List.map_map, List.map_cons, List.map_nil, hruler,
      hempty, Function.comp_def]

/-- A report in which each of the sections lists other entries. -/
def mixed : Report where
  baselineDescription := "main"
  newDescription := "ünï topic\r"
  thresholds := .standard
  entries :=
    [⟨⟨"fib", "", 2⟩, "fib, , 02", 10, 11, 10, false⟩,
      ⟨⟨"fib", "", 4⟩, "fib, , 04", 10, 10, 0, false⟩,
      ⟨⟨"sort", "", 4⟩, "sort, , 04\r", 100, 98, -2, false⟩,
      ⟨⟨"spin", "", 4⟩, "spin, , 04", 0, 1, 1e300, true⟩,
      ⟨⟨"walk", "", 4⟩, "walk, , 04", 10, 9, -10, false⟩]
  newPoints := [⟨"zip", "", 1⟩]
  diagnostics := []

theorem sections_of_lines_mixed
    : mixed.Texts (· ≠ '\n')
      ∧ (Text.lines mixed.text).length = 18 + 2 + 1 + 4 + 5
      ∧ sectionLines [mixed.fasterTitle, "", mixed.columnNames] mixed.faster
          <+: (Text.lines mixed.text).drop 7
      ∧ (Text.lines (mixed.terminal false))[9]? =
          some "Summary: 2 slower, 1 faster, 4 changed of 5 compared, 1 new" := by
  have htexts : mixed.Texts (· ≠ '\n') := by decide +kernel
  have hslower : mixed.slower.length = 2 := by decide +kernel
  have hfaster : mixed.faster.length = 1 := by decide +kernel
  have hchanged : mixed.changed.length = 4 := by decide +kernel
  obtain ⟨⟨hlength, -, hsection, -⟩, -, -, hscreen⟩ := sections_of_lines htexts
  rw [hslower, hfaster, hchanged] at hlength
  rw [hslower] at hsection
  refine ⟨htexts, hlength, hsection, ?_⟩
  rw [hscreen]
  decide +kernel

end Report

end BenchLog
