import BenchLog.Text.Columns

/-! Styled text on a terminal.
A styled text stands between an escape sequence that opens its style and one that ends every style;
where the text itself ends a style, its own is opened again.
-/

namespace BenchLog

/-- The colours in use. -/
inductive Colour where
  | red
  | green
  | yellow
  deriving Repr, DecidableEq

/-- How a text is shown. -/
structure Style where
  bold : Bool
  colour : Option Colour
  deriving Repr, DecidableEq

namespace Style

def escape : Char := Char.ofNat 27

def colourCode : Colour → String
  | .red => "31"
  | .green => "32"
  | .yellow => "33"

/-- The codes of a style, that of bold text first. -/
def codes (s : Style) : List String :=
  (if s.bold then ["1"] else []) ++ (s.colour.map colourCode).toList

def opening (s : Style) : List Char :=
  escape :: '[' :: ((String.intercalate ";" s.codes).toList ++ ['m'])

def reset : List Char := [escape, '[', '0', 'm']

/-- A text with a sequence put in after every reset. -/
def reopen (sequence : List Char) : List Char → List Char
  | [] => []
  | c₀ :: c₁ :: c₂ :: c₃ :: cs =>
      if [c₀, c₁, c₂, c₃] = reset then
        c₀ :: c₁ :: c₂ :: c₃ :: (sequence ++ reopen sequence cs)
      else c₀ :: reopen sequence (c₁ :: c₂ :: c₃ :: cs)
  | c :: cs => c :: reopen sequence cs

def paint (s : Style) (text : String) : String :=
  String.ofList (s.opening ++ reopen s.opening text.toList ++ reset)

end Style

end BenchLog
