import BenchLog.Proofs.Report.Rows

/-! Colours as sequences between the characters of a text.
A terminal reads what it is sent as colour sequences and characters. Of the coloured report the
sequences are those that open and end the styles of its spans, and the characters are the bare
report.
-/

namespace BenchLog

-----------------------------------------------------------------------------------------
-- What a terminal reads
-----------------------------------------------------------------------------------------

namespace Style

/-- A part of what a terminal is sent. -/
inductive Piece where
  /-- A sequence that changes the style of what follows. -/
  | sequence (cs : List Char)
  /-- A character to be shown. -/
  | character (c : Char)
  deriving Repr, DecidableEq

namespace Piece

def sequence? : Piece → Option (List Char)
  | sequence cs => some cs
  | character _ => none

def character? : Piece → Option Char
  | sequence _ => none
  | character c => some c

end Piece

/-- A character between the opening of a colour sequence and its last letter. -/
def isParameter (c : Char) : Bool :=
  c.isDigit || c == ';'

/-- The colour sequence with which a text begins and what follows it: an escape and a bracket,
parameters, and the letter that stands for colours. -/
def split? : List Char → Option (List Char × List Char)
  | c₀ :: c₁ :: cs =>
      if c₀ = escape ∧ c₁ = '[' then
        match cs.dropWhile isParameter with
        | 'm' :: rest => some (c₀ :: c₁ :: (cs.takeWhile isParameter ++ ['m']), rest)
        | _ => none
      else none
  | _ => none

theorem length_lt_of_split? {cs sequence rest : List Char} (h : split? cs = some (sequence, rest))
    : rest.length < cs.length := by
  unfold split? at h
  split at h
  · next c₀ c₁ cs =>
      split at h
      · split at h
        · next found hfound =>
            cases h
            have hle := (List.dropWhile_sublist isParameter (l := cs)).length_le
            rw [hfound, List.length_cons] at hle
            simp only [List.length_cons]
            omega
        · cases h
      · cases h
  · cases h

/-- What a terminal reads in a text. -/
def pieces : List Char → List Piece
  | [] => []
  | c :: cs =>
      match _h : split? (c :: cs) with
      | some (sequence, rest) => .sequence sequence :: pieces rest
      | none => .character c :: pieces cs
termination_by cs => cs.length
decreasing_by
  · exact length_lt_of_split? _h
  · exact Nat.lt_succ_self _

/-- A text without its colour sequences. -/
def bare (text : String) : String :=
  String.ofList ((pieces text.toList).filterMap Piece.character?)

/-- The colour sequences of a text. -/
def sequences (text : String) : List (List Char) :=
  (pieces text.toList).filterMap Piece.sequence?

-----------------------------------------------------------------------------------------
-- Texts that are read as they are
-----------------------------------------------------------------------------------------

/-- The text is read as the pieces, whatever follows it. -/
def Reads (cs : List Char) (ps : List Piece) : Prop :=
  ∀ rest, pieces (cs ++ rest) = ps ++ pieces rest

theorem pieces_of_split? {cs sequence rest : List Char} (h : split? cs = some (sequence, rest))
    : pieces cs = .sequence sequence :: pieces rest := by
  cases cs with
  | nil => cases h
  | cons c cs =>
      rw [pieces]
      split
      · next heq =>
          cases heq.symm.trans h
          rfl
      · next heq => cases heq.symm.trans h

theorem pieces_cons {c : Char} (h : c ≠ escape) (cs : List Char)
    : pieces (c :: cs) = .character c :: pieces cs := by
  have hnone : split? (c :: cs) = none := by
    cases cs with
    | nil => rfl
    | cons d cs => simp [split?, h]
  rw [pieces]
  split
  · next heq => cases heq.symm.trans hnone
  · rfl

namespace Reads

variable {cs ds : List Char} {ps qs : List Piece}

theorem nil
    : Reads [] [] :=
  fun _ => rfl

theorem append (hc : Reads cs ps) (hd : Reads ds qs)
    : Reads (cs ++ ds) (ps ++ qs) := by
  intro rest
  rw [List.append_assoc, hc, hd, List.append_assoc]

theorem flatMap {α : Type} {xs : List α} {f : α → List Char} {g : α → List Piece}
    (h : ∀ x ∈ xs, Reads (f x) (g x))
    : Reads (xs.flatMap f) (xs.flatMap g) := by
  induction xs with
  | nil => exact nil
  | cons x xs ih =>
      obtain ⟨hx, hxs⟩ := List.forall_mem_cons.mp h
      rw [List.flatMap_cons, List.flatMap_cons]
      exact hx.append (ih hxs)

theorem pieces_eq (h : Reads cs ps)
    : pieces cs = ps := by
  have hall := h []
  rwa [List.append_nil, pieces, List.append_nil] at hall

/-- Without an escape every character stands for itself, by induction along the text. -/
theorem characters (h : ∀ c ∈ cs, c ≠ escape)
    : Reads cs (cs.map .character) := by
  intro rest
  induction cs with
  | nil => rfl
  | cons c cs ih =>
      obtain ⟨hc, hcs⟩ := List.forall_mem_cons.mp h
      rw [List.cons_append, pieces_cons hc, ih hcs]
      rfl

theorem opening (s : Style)
    : Reads s.opening [.sequence s.opening] := by
  intro rest
  apply pieces_of_split?
  rcases s with ⟨bold, colour⟩
  cases bold <;> rcases colour with _ | (_ | _ | _) <;> rfl

theorem reset
    : Reads Style.reset [.sequence Style.reset] :=
  fun _ => pieces_of_split? rfl

end Reads

/-- A text without an escape has no reset in it after which the style would have to be opened
again. -/
theorem reopen_eq_self (sequence : List Char) {cs : List Char} (h : ∀ c ∈ cs, c ≠ escape)
    : reopen sequence cs = cs := by
  fun_induction reopen sequence cs with
  | case1 => rfl
  | case2 c₀ c₁ c₂ c₃ cs heq _ =>
      cases heq
      exact absurd rfl (h escape List.mem_cons_self)
  | case3 c₀ c₁ c₂ c₃ cs _ ih => rw [ih fun c hc => h c (List.mem_cons_of_mem _ hc)]
  | case4 c cs _ ih => rw [ih fun c hc => h c (List.mem_cons_of_mem _ hc)]

/-- A painted text is read as its characters between the two sequences. -/
theorem reads_paint (s : Style) {text : String} (h : ∀ c ∈ text.toList, c ≠ escape)
    : Reads (s.paint text).toList
        (.sequence s.opening :: (text.toList.map .character ++ [.sequence reset])) := by
  rw [paint, String.toList_ofList, reopen_eq_self _ h, List.append_assoc]
  exact (Reads.opening s).append ((Reads.characters h).append .reset)

end Style

-----------------------------------------------------------------------------------------
-- The report
-----------------------------------------------------------------------------------------

namespace Report

open Style

/-- What a terminal reads in a span with colours. -/
def Span.pieces (s : Span) : List Piece :=
  match s.style with
  | some style =>
      .sequence style.opening :: (s.text.toList.map .character ++ [.sequence reset])
  | none => s.text.toList.map .character

/-- The colour sequences around a span. -/
def Span.marks (s : Span) : List (List Char) :=
  match s.style with
  | some style => [style.opening, reset]
  | none => []

theorem Span.reads_render {s : Span} (h : ∀ c ∈ s.text.toList, c ≠ escape)
    : Reads (s.render true).toList s.pieces := by
  obtain ⟨style, text⟩ := s
  cases style with
  | none => exact .characters h
  | some style => exact reads_paint style h

theorem Span.characters_pieces (s : Span)
    : s.pieces.filterMap Piece.character? = (s.render false).toList := by
  obtain ⟨style, text⟩ := s
  have htext : (text.toList.map Piece.character).filterMap Piece.character? = text.toList := by
    rw [List.filterMap_map]
    exact List.filterMap_some
  cases style with
  | none => exact htext
  | some style =>
      change (text.toList.map Piece.character ++ [Piece.sequence reset]).filterMap Piece.character? = _
      rw [List.filterMap_append, htext]
      exact List.append_nil _

theorem Span.sequences_pieces (s : Span)
    : s.pieces.filterMap Piece.sequence? = s.marks := by
  obtain ⟨style, text⟩ := s
  have htext : (text.toList.map Piece.character).filterMap Piece.sequence? = [] := by
    rw [List.filterMap_map]
    exact List.filterMap_eq_nil_iff.mpr fun _ _ => rfl
  cases style with
  | none => exact htext
  | some style =>
      change style.opening ::
        (text.toList.map Piece.character ++ [Piece.sequence reset]).filterMap _ = _
      rw [List.filterMap_append, htext]
      rfl

/-- Row by row the coloured report is read as its spans. -/
theorem pieces_terminal {r : Report} (h : r.Texts (· ≠ escape))
    : pieces (r.terminal true).toList =
        r.terminalRows.flatMap fun row => row.flatMap Span.pieces ++ [.character '\n'] := by
  have hspans := forall_terminalRows (P := (· ≠ escape)) (fun _ hc => hc.ne_escape) h
  apply Reads.pieces_eq
  rw [toList_terminal]
  refine Reads.flatMap fun row hrow => Reads.append ?_ (.characters (List.forall_mem_singleton.mpr (by decide)))
  rw [toList_renderRow]
  exact Reads.flatMap fun s hs => Span.reads_render (hspans row hrow s hs)

/-- Without its colour sequences the coloured report is the bare one, and the sequences are those
that open and end the styles of its spans in order. -/
theorem bare_terminal {r : Report} (h : r.Texts (· ≠ escape))
    : bare (r.terminal true) = r.terminal false
      ∧ sequences (r.terminal true) = r.terminalRows.flatMap fun row => row.flatMap Span.marks := by
  have hcharacters
      : ∀ row : List Span,
          (row.flatMap Span.pieces ++ [Piece.character '\n']).filterMap Piece.character? =
            (renderRow false row).toList ++ ['\n'] := by
    intro row
    rw [List.filterMap_append, List.filterMap_flatMap, toList_renderRow]
    simp only [Span.characters_pieces]
    rfl
  have hsequences
      : ∀ row : List Span,
          (row.flatMap Span.pieces ++ [Piece.character '\n']).filterMap Piece.sequence? =
            row.flatMap Span.marks := by
    intro row
    rw [List.filterMap_append, List.filterMap_flatMap]
    simp only [Span.sequences_pieces]
    exact List.append_nil _
  constructor
  · rw [bare, pieces_terminal h, List.filterMap_flatMap]
    simp only [hcharacters]
    rw [← toList_terminal, String.ofList_toList]
  · rw [sequences, pieces_terminal h, List.filterMap_flatMap]
    simp only [hsequences]

/-- A report whose first label looks like a part of a colour sequence. -/
def bracketed : Report where
  baselineDescription := "main"
  newDescription := "topic"
  thresholds := .standard
  entries :=
    [⟨⟨"fib", "[31m", 2⟩, "fib, [31m, 02", 10, 11, 10, false⟩,
      ⟨⟨"sort", "", 4⟩, "sort, , 04", 0, 1, 1e300, true⟩]
  newPoints := []
  diagnostics := []

/-- The header, the two rows and the four parts of the summary that have a style. -/
theorem bare_terminal_bracketed
    : bracketed.Texts (· ≠ escape)
      ∧ bare (bracketed.terminal true) = bracketed.terminal false
      ∧ (sequences (bracketed.terminal true)).map String.ofList =
          ["\x1b[1m", "\x1b[0m", "\x1b[1;31m", "\x1b[0m", "\x1b[1;33m", "\x1b[0m", "\x1b[1m",
            "\x1b[0m", "\x1b[31m", "\x1b[0m", "\x1b[32m", "\x1b[0m", "\x1b[33m", "\x1b[0m"] := by
  have htexts : bracketed.Texts (· ≠ escape) := by decide +kernel
  obtain ⟨hbare, hsequences⟩ := bare_terminal htexts
  refine ⟨htexts, hbare, ?_⟩
  rw [hsequences]
  decide +kernel

end Report

end BenchLog
