import BenchLog.Decimal.Binary
import BenchLog.Text.Case

/-! Reading decimal numerals.
A numeral has digits before or after a point, or both, and may have a sign and an exponent part.
It is read as the nearest floating-point value; numerals too large for one are infinite.
-/

namespace BenchLog.Decimal

def digitValue (c : Char) : Nat :=
  c.toNat - '0'.toNat

def ofDigits (ds : List Char) : Nat :=
  ds.foldl (fun n c => 10 * n + digitValue c) 0

def splitSign : List Char → Bool × List Char
  | '-' :: cs => (true, cs)
  | '+' :: cs => (false, cs)
  | cs => (false, cs)

/-- The digits at the start of a text and what follows them. -/
def splitDigits (cs : List Char) : List Char × List Char :=
  (cs.takeWhile Char.isDigit, cs.dropWhile Char.isDigit)

/-- A numeral without its sign: the digits around the point and the exponent part. -/
structure Numeral where
  whole : List Char
  fraction : List Char
  exponent : Int
  deriving Repr, DecidableEq

/-- An exponent part up to the end of the text; where there is none the exponent is zero. -/
def readExponent? : List Char → Option Int
  | [] => some 0
  | c :: cs =>
      if c = 'e' ∨ c = 'E' then
        let (negative, rest) := splitSign cs
        match splitDigits rest with
        | ([], _) => none
        | (ds, []) => some (if negative then -(ofDigits ds : Int) else ofDigits ds)
        | (_, _ :: _) => none
      else none

/-- The numeral that a whole text without sign spells. -/
def readNumeral? (cs : List Char) : Option Numeral :=
  let (whole, rest) := splitDigits cs
  let (fraction, rest) :=
    match rest with
    | '.' :: rest => splitDigits rest
    | rest => ([], rest)
  if whole = [] ∧ fraction = [] then none
  else (readExponent? rest).map fun exponent => { whole, fraction, exponent }

/-- The code of the value nearest to a numeral.
A numeral whose first digit is far outside the range of values is not multiplied out. -/
def Numeral.code (n : Numeral) : Nat :=
  let ds := (n.whole ++ n.fraction).dropWhile (· == '0')
  let power := n.exponent - n.fraction.length
  let top := power + ds.length
  if ds = [] ∨ top < -400 then 0
  else if 400 < top then infiniteCode
  else nearestCode (Ratio.scale ⟨ofDigits ds, 1⟩ 10 power)

/-- The value that a whole text spells: a numeral, or one of the words for what is no numeral. -/
def readFloatChars? (cs : List Char) : Option Float :=
  let (negative, rest) := splitSign cs
  let word := String.ofList (Text.lowerChars rest)
  if word = "inf" ∨ word = "infinity" then some (floatOfCode negative infiniteCode)
  else if word = "nan" then some notANumber
  else (readNumeral? rest).map fun n => floatOfCode negative n.code

def readFloat? (s : String) : Option Float :=
  readFloatChars? s.toList

/-- The word of 32 bits that a text of digits spells, with a plus sign or without. -/
def readWordChars? (cs : List Char) : Option UInt32 :=
  let ds :=
    match cs with
    | '+' :: rest => rest
    | rest => rest
  if ds ≠ [] ∧ ds.all Char.isDigit ∧ ofDigits ds < UInt32.size then some (UInt32.ofNat (ofDigits ds))
  else none

def readWord? (s : String) : Option UInt32 :=
  readWordChars? s.toList

end BenchLog.Decimal
