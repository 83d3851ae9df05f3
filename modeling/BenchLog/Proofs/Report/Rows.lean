import BenchLog.Proofs.Decimal.Characters
import BenchLog.Report.Screen
import BenchLog.Report.Sections

/-! The characters in the rows of a report.
Besides the labels and the descriptions a row holds numbers, spaces and the words of its layout, all
of which are shown as they are. What holds of every shown character therefore holds of a whole row
as soon as it holds of the labels and the descriptions.
-/

namespace BenchLog

open Decimal

-----------------------------------------------------------------------------------------
-- Characters that are shown
-----------------------------------------------------------------------------------------

/-- A character that neither ends a line nor opens a sequence: one from the space on. -/
def IsShown (c : Char) : Prop :=
  32 ≤ c.toNat

instance (c : Char) : Decidable (IsShown c) :=
  inferInstanceAs (Decidable (_ ≤ _))

theorem IsShown.ne_feed {c : Char} (h : IsShown c)
    : c ≠ '\n' := by
  rintro rfl
  exact absurd h (by decide)

theorem IsShown.ne_return {c : Char} (h : IsShown c)
    : c ≠ '\r' := by
  rintro rfl
  exact absurd h (by decide)

theorem IsShown.ne_escape {c : Char} (h : IsShown c)
    : c ≠ Style.escape := by
  rintro rfl
  exact absurd h (by decide)

theorem isShown_of_all {cs : List Char} (h : cs.all (fun c => decide (IsShown c)) = true)
    : ∀ c ∈ cs, IsShown c := by
  simpa using h

theorem isShown_of_isNumeric {c : Char} (h : IsNumeric c)
    : IsShown c := by
  rcases h with h | h
  · simp only [Char.isDigit, Bool.and_eq_true, decide_eq_true_eq] at h
    have hl : 48 ≤ c.toNat := UInt32.le_iff_toNat_le.mp h.1
    exact le_trans (by decide) hl
  · exact isShown_of_all (by decide) c h

theorem isShown_fixed (places : Nat) (x : Float)
    : ∀ c ∈ (fixed places x).toList, IsShown c :=
  fun c hc => isShown_of_isNumeric (isNumeric_fixed places x c hc)

theorem isShown_general (x : Float)
    : ∀ c ∈ (general x).toList, IsShown c :=
  fun c hc => isShown_of_isNumeric (isNumeric_general x c hc)

theorem isShown_toString (n : Nat)
    : ∀ c ∈ (toString n).toList, IsShown c := by
  rw [Nat.toString_eq_repr, Nat.toList_repr]
  exact fun c hc => isShown_of_isNumeric (isNumeric_digits n c hc)

theorem isShown_filling (width : Nat) (s : String)
    : ∀ c ∈ (Text.filling width s).toList, IsShown c := by
  rw [Text.filling, String.toList_ofList]
  intro c hc
  rw [(List.mem_replicate.mp hc).2]
  decide

-----------------------------------------------------------------------------------------
-- Rows
-----------------------------------------------------------------------------------------

namespace Report

/-- Every character of a description or a label has the property. -/
structure Texts (P : Char → Prop) (r : Report) : Prop where
  baseline : ∀ c ∈ r.baselineDescription.toList, P c
  new : ∀ c ∈ r.newDescription.toList, P c
  labels : ∀ e ∈ r.entries, ∀ c ∈ e.label.toList, P c

-- the texts are searched, since to decide a statement on all characters would try every one
instance (P : Char → Prop) [DecidablePred P] (r : Report) : Decidable (r.Texts P) :=
  decidable_of_iff
    (r.baselineDescription.toList.all (fun c => decide (P c)) = true
      ∧ r.newDescription.toList.all (fun c => decide (P c)) = true
      ∧ ∀ e ∈ r.entries, e.label.toList.all (fun c => decide (P c)) = true)
    (by
      simp only [List.all_eq_true, decide_eq_true_eq]
      exact ⟨fun h => ⟨h.1, h.2.1, h.2.2⟩, fun h => ⟨h.baseline, h.new, h.labels⟩⟩)

theorem isShown_changeText (e : Entry)
    : ∀ c ∈ (changeText e).toList, IsShown c := by
  have hpercent
      : ∀ {sign : String} {x : Float}, (∀ c ∈ sign.toList, IsShown c) →
          ∀ c ∈ (sign ++ fixed 2 x ++ "%").toList, IsShown c := by
    intro sign x hsign
    simp only [String.toList_append, List.forall_mem_append]
    exact ⟨⟨hsign, isShown_fixed _ _⟩, isShown_of_all (by decide)⟩
  unfold changeText
  split
  · exact isShown_of_all (by decide)
  · split
    · exact hpercent (isShown_of_all (by decide))
    · split
      · exact hpercent (isShown_of_all (by decide))
      · exact isShown_of_all (by decide)

-----------------------------------------------------------------------------------------
-- What is written of a row
-----------------------------------------------------------------------------------------

theorem toList_renderRow (colours : Bool) (row : List Span)
    : (renderRow colours row).toList = row.flatMap fun s => (s.render colours).toList := by
  rw [renderRow, String.toList_join, List.flatMap_map]

theorem toList_terminal (colours : Bool) (r : Report)
    : (r.terminal colours).toList =
        r.terminalRows.flatMap fun row => (renderRow colours row).toList ++ ['\n'] := by
  rw [terminal, String.toList_join, List.flatMap_map]
  simp only [String.toList_append]
  rfl

theorem renderRow_bare (row : List Span)
    : renderRow false row = String.join (row.map Span.text) := by
  have hrender : Span.render false = Span.text := by
    funext s
    obtain ⟨style, text⟩ := s
    cases style <;> rfl
  rw [renderRow, hrender]

-----------------------------------------------------------------------------------------
-- What holds of every character
-----------------------------------------------------------------------------------------

section

variable {P : Char → Prop} (shown : ∀ c, IsShown c → P c)

include shown

theorem forall_of_isShown {cs : List Char} (h : ∀ c ∈ cs, IsShown c)
    : ∀ c ∈ cs, P c :=
  fun c hc => shown c (h c hc)

theorem forall_alignRight {s : String} (h : ∀ c ∈ s.toList, P c) (width : Nat)
    : ∀ c ∈ (Text.alignRight width s).toList, P c := by
  rw [Text.alignRight, String.toList_append, List.forall_mem_append]
  exact ⟨forall_of_isShown shown (isShown_filling width s), h⟩

theorem forall_alignLeft {s : String} (h : ∀ c ∈ s.toList, P c) (width : Nat)
    : ∀ c ∈ (Text.alignLeft width s).toList, P c := by
  rw [Text.alignLeft, String.toList_append, List.forall_mem_append]
  exact ⟨h, forall_of_isShown shown (isShown_filling width s)⟩

theorem forall_shortLabel {label : String} (h : ∀ c ∈ label.toList, P c)
    : ∀ c ∈ (shortLabel label).toList, P c := by
  unfold shortLabel
  split
  · rw [String.toList_append, String.toList_ofList, List.forall_mem_append]
    exact ⟨fun c hc => h c (List.mem_of_mem_take hc),
      forall_of_isShown shown (isShown_of_all (by decide))⟩
  · exact h

theorem forall_textRow {e : Entry} (h : ∀ c ∈ e.label.toList, P c)
    : ∀ c ∈ (textRow e).toList, P c := by
  have hcomma : ∀ c ∈ ", ".toList, P c := forall_of_isShown shown (isShown_of_all (by decide))
  have hnumber : ∀ x, ∀ c ∈ (Text.alignRight 8 (general x)).toList, P c :=
    fun x => forall_alignRight shown (forall_of_isShown shown (isShown_general x)) 8
  simp only [textRow, String.toList_append, List.forall_mem_append, and_assoc]
  exact ⟨forall_alignRight shown h 40, hcomma, hnumber _, hcomma, hnumber _, hcomma, hnumber _⟩

theorem forall_columnNames {r : Report} (h : r.Texts P)
    : ∀ c ∈ r.columnNames.toList, P c := by
  have hspace : ∀ c ∈ " ".toList, P c := forall_of_isShown shown (isShown_of_all (by decide))
  simp only [columnNames, String.toList_append, List.forall_mem_append, and_assoc]
  refine ⟨?_, ?_, hspace, forall_alignRight shown h.baseline 15, hspace,
    forall_alignRight shown h.new 15, hspace, ?_⟩
  · exact forall_of_isShown shown (isShown_of_all (by decide))
  · exact forall_of_isShown shown (isShown_of_all (by decide))
  · exact forall_of_isShown shown (isShown_of_all (by decide))

theorem forall_terminalHeader {r : Report} (h : r.Texts P)
    : ∀ span ∈ r.terminalHeader, ∀ c ∈ span.text.toList, P c := by
  have hspace : ∀ c ∈ " ".toList, P c := forall_of_isShown shown (isShown_of_all (by decide))
  simp only [terminalHeader, Span.bold, List.forall_mem_singleton, String.toList_append,
    List.forall_mem_append, and_assoc]
  refine ⟨?_, hspace, forall_alignRight shown h.baseline 14, hspace,
    forall_alignRight shown h.new 14, hspace, ?_⟩
  · exact forall_of_isShown shown (isShown_of_all (by decide))
  · exact forall_of_isShown shown (isShown_of_all (by decide))

theorem forall_terminalRow (t : Thresholds) {e : Entry} (h : ∀ c ∈ e.label.toList, P c)
    : ∀ span ∈ terminalRow t e, ∀ c ∈ span.text.toList, P c := by
  have hspace : ∀ c ∈ " ".toList, P c := forall_of_isShown shown (isShown_of_all (by decide))
  have hnumber : ∀ x, ∀ c ∈ (Text.alignRight 14 (general x)).toList, P c :=
    fun x => forall_alignRight shown (forall_of_isShown shown (isShown_general x)) 14
  simp only [terminalRow, Span.plain, List.forall_mem_cons, List.not_mem_nil, IsEmpty.forall_iff,
    implies_true, and_true, String.toList_append, List.forall_mem_append, and_assoc]
  exact ⟨forall_alignLeft shown (forall_shortLabel shown h) 40, hspace, hnumber _, hspace,
    hnumber _, hspace, forall_of_isShown shown (isShown_filling 12 _),
    forall_of_isShown shown (isShown_changeText e)⟩

theorem forall_summaryRow (r : Report)
    : ∀ span ∈ r.summaryRow, ∀ c ∈ span.text.toList, P c := by
  have hcount : ∀ (n : Nat), ∀ c ∈ (toString n).toList, P c :=
    fun n => forall_of_isShown shown (isShown_toString n)
  have hword : ∀ {cs : List Char}, cs.all (fun c => decide (IsShown c)) = true → ∀ c ∈ cs, P c :=
    fun hs => forall_of_isShown shown (isShown_of_all hs)
  simp only [summaryRow, Span.plain, Span.bold, Span.coloured, List.forall_mem_cons,
    List.not_mem_nil, IsEmpty.forall_iff, implies_true, and_true, String.toList_append,
    List.forall_mem_append, and_assoc]
  exact ⟨hword (by decide), hword (by decide), hcount _, hword (by decide), hword (by decide),
    hcount _, hword (by decide), hword (by decide), hcount _, hword (by decide),
    hword (by decide), hcount _, hword (by decide), hcount _, hword (by decide)⟩

theorem forall_terminalRows {r : Report} (h : r.Texts P)
    : ∀ row ∈ r.terminalRows, ∀ span ∈ row, ∀ c ∈ span.text.toList, P c := by
  have hruler : ∀ span ∈ [Span.plain ruler], ∀ c ∈ span.text.toList, P c := by
    simp only [Span.plain, List.forall_mem_singleton]
    exact forall_of_isShown shown (isShown_of_all (by decide))
  intro row hrow
  simp only [terminalRows, List.mem_append, List.mem_cons, List.not_mem_nil, or_false,
    List.mem_map] at hrow
  rcases hrow with ((rfl | rfl | rfl) | ⟨e, he, rfl⟩) | rfl | rfl | rfl | rfl
  · simp
  · exact forall_terminalHeader shown h
  · exact hruler
  · exact forall_terminalRow shown _ (h.labels e (List.mem_of_mem_filter he))
  · simp
  · exact hruler
  · exact forall_summaryRow shown r
  · simp

end

end Report

end BenchLog
