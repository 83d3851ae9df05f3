import BenchLog.Text.Lines

/-! Keeping the lines of a text that contain one of some patterns.
A group without patterns keeps every line.
-/

namespace BenchLog

/-- The patterns of which a kept line contains one. -/
structure PatternGroup where
  patterns : List String
  deriving Repr, DecidableEq

namespace PatternGroup

/-- The characters of a pattern occur in a row somewhere in the text. -/
def occurs (pattern : List Char) : List Char → Bool
  | [] => pattern.isEmpty
  | c :: cs => pattern.isPrefixOf (c :: cs) || occurs pattern cs

/-- The text contains one of the patterns, or there are none. -/
def keeps (group : PatternGroup) (text : String) : Bool :=
  group.patterns.isEmpty || group.patterns.any fun pattern => occurs pattern.toList text.toList

def lines (group : PatternGroup) (text : String) : List String :=
  (Text.lines text).filter group.keeps

/-- A pattern occurs in a text exactly when it stands between two parts of it, by induction along
the text. -/
theorem occurs_iff (pattern text : List Char)
    : occurs pattern text = true ↔ pattern <:+: text := by
  induction text with
  | nil => simp [occurs]
  | cons c cs ih =>
      rw [occurs, Bool.or_eq_true, List.isPrefixOf_iff_prefix, ih, List.infix_cons_iff]

end PatternGroup

end BenchLog
