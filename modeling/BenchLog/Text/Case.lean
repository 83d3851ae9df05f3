/-! Lower-case forms of texts, of the letters A to Z only.
Other letters keep their case, so that texts of equal lower-case form differ in nothing else.
-/

namespace BenchLog.Text

def lowerChars (cs : List Char) : List Char :=
  cs.map Char.toLower

def lower (s : String) : String :=
  String.ofList (lowerChars s.toList)

/-- Two texts that differ at most in the case of their letters. -/
def sameLetters (s t : String) : Bool :=
  lower s == lower t

end BenchLog.Text
