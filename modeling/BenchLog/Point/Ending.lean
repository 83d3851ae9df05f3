import BenchLog.Text.Blank

/-! The end of the line of a point, from the bracket that opens the input.
The input and the output are the longest texts after which the line can still be completed. They are
defined one by one, and found together in a single pass from the end of the line.
-/

namespace BenchLog.PointLine

/-- What follows an opening bracket, blanks before it being skipped. -/
def openBracket? (cs : List Char) : Option (List Char) :=
  match Text.dropBlank cs with
  | '[' :: rest => some rest
  | _ => none

/-- What follows a comma and an opening bracket, blanks before each being skipped. -/
def nextBracket? (cs : List Char) : Option (List Char) :=
  match Text.dropBlank cs with
  | ',' :: rest => openBracket? rest
  | _ => none

/-- A text without line feed. -/
def isPlain (cs : List Char) : Bool :=
  cs.all (· != '\n')

/-- Text that may follow the last bracket: no line feed but among the blanks at its start. -/
def isTail (cs : List Char) : Bool :=
  isPlain (Text.dropBlank cs)

/-- The longest output without line feed that ends at a bracket and is followed by a tail. -/
def output? : List Char → Option (List Char)
  | [] => none
  | c :: cs =>
      match if c = '\n' then none else output? cs with
      | some output => some (c :: output)
      | none => if c = ']' ∧ isTail cs then some [] else none

/-- The longest input without line feed that ends at a bracket and is followed by an output. -/
def inputOutput? : List Char → Option (List Char × List Char)
  | [] => none
  | c :: cs =>
      match if c = '\n' then none else inputOutput? cs with
      | some (input, output) => some (c :: input, output)
      | none =>
          if c = ']' then ((nextBracket? cs).bind output?).map fun output => ([], output) else none

/-- What the rest of a line can be read as, from one place on. -/
structure Ending where
  /-- It has no line feed. -/
  plain : Bool
  /-- It may follow the last bracket. -/
  tail : Bool
  /-- It is an output. -/
  output : Option (List Char)
  /-- It is an output after its opening bracket. -/
  opened : Option (List Char)
  /-- It is an output after a comma and its opening bracket. -/
  separated : Option (List Char)
  /-- It is an input with an output after it. -/
  fields : Option (List Char × List Char)
  deriving Repr, DecidableEq

namespace Ending

/-- At the end of the line nothing is left to be read. -/
def empty : Ending :=
  ⟨true, true, none, none, none, none⟩

/-- One place earlier in the line. -/
def before (c : Char) (e : Ending) : Ending where
  plain := c != '\n' && e.plain
  tail := if Text.isBlank c then e.tail else c != '\n' && e.plain
  output :=
    match if c = '\n' then none else e.output with
    | some output => some (c :: output)
    | none => if c = ']' ∧ e.tail then some [] else none
  opened := if Text.isBlank c then e.opened else if c = '[' then e.output else none
  separated := if Text.isBlank c then e.separated else if c = ',' then e.opened else none
  fields :=
    match if c = '\n' then none else e.fields with
    | some (input, output) => some (c :: input, output)
    | none => if c = ']' then e.separated.map fun output => ([], output) else none

/-- The reading of a text, found from its end. -/
def ofChars (cs : List Char) : Ending :=
  cs.foldr before empty

/-- A text that begins with a blank is opened where the rest of it is. -/
theorem openBracket?_cons (c : Char) (cs : List Char)
    : openBracket? (c :: cs) =
        if Text.isBlank c then openBracket? cs else if c = '[' then some cs else none := by
  unfold openBracket? Text.dropBlank
  rw [List.dropWhile_cons]
  by_cases hb : Text.isBlank c
  · simp [hb]
  · by_cases hc : c = '['
    · subst hc
      simp [hb]
    · simp only [hb, hc]
      grind

/-- A text that begins with a blank goes on where the rest of it does. -/
theorem nextBracket?_cons (c : Char) (cs : List Char)
    : nextBracket? (c :: cs) =
        if Text.isBlank c then nextBracket? cs else if c = ',' then openBracket? cs else none := by
  unfold nextBracket? Text.dropBlank
  rw [List.dropWhile_cons]
  by_cases hb : Text.isBlank c
  · simp [hb]
  · by_cases hc : c = ','
    · subst hc
      simp [hb]
    · simp only [hb, hc]
      grind

/-- Blanks at its start make no difference to a tail. -/
theorem isTail_cons (c : Char) (cs : List Char)
    : isTail (c :: cs) = if Text.isBlank c then isTail cs else c != '\n' && isPlain cs := by
  unfold isTail Text.dropBlank
  rw [List.dropWhile_cons]
  split <;> rfl

/-- The single pass finds what is defined one by one, by induction along the text. -/
theorem ofChars_eq (cs : List Char)
    : ofChars cs =
        ⟨isPlain cs, isTail cs, output? cs, (openBracket? cs).bind output?,
          (nextBracket? cs).bind output?, inputOutput? cs⟩ := by
  induction cs with
  | nil => rfl
  | cons c cs ih =>
      have step : ofChars (c :: cs) = before c (ofChars cs) := rfl
      rw [step, ih, openBracket?_cons, nextBracket?_cons, isTail_cons]
      simp only [before, Ending.mk.injEq]
      refine ⟨rfl, trivial, ?_, ?_, ?_, ?_⟩
      · rw [output?]
      · split
        · rfl
        · split <;> rfl
      · split
        · rfl
        · split <;> rfl
      · rw [inputOutput?]

/-- The input and the output found in a single pass are the longest ones. -/
theorem fields_ofChars (cs : List Char)
    : (ofChars cs).fields = inputOutput? cs := by
  rw [ofChars_eq]

end Ending

end BenchLog.PointLine
