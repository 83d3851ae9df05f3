import BenchLog.Decimal.Fixed

/-! Decimal texts of six significant digits in the shorter of two notations.
The digits are rounded once from the exact value; where their exponent is small they are written
plainly, else with an exponent part, and zeros at the end of a fraction are left out.
-/

namespace BenchLog.Decimal

/-- A number as a count of units of its last significant digit, with the exponent of the first. -/
structure Significant where
  units : Nat
  exponent : Int
  deriving Repr, DecidableEq

/-- A positive quotient with the given count of significant digits, half to even. -/
def Ratio.significant (count : Nat) (r : Ratio) : Significant :=
  let exponent := r.exponent 10
  let units := (r.scale 10 (count - 1 - exponent)).round
  if units < Nat.pow 10 count then ⟨units, exponent⟩ else ⟨units / 10, exponent + 1⟩

def dropZerosEnd (cs : List Char) : List Char :=
  (cs.reverse.dropWhile (· == '0')).reverse

/-- A decimal text without the zeros that end its fraction, nor the point if nothing follows it. -/
def trimFraction (cs : List Char) : List Char :=
  if '.' ∈ cs then
    let kept := dropZerosEnd cs
    if kept.getLast? = some '.' then kept.dropLast else kept
  else cs

def precision : Nat := 6

/-- An exponent part: a sign and at least two digits. -/
def exponentPart (exponent : Int) : List Char :=
  'e' :: (if exponent < 0 then '-' else '+') :: paddedDigits 2 exponent.natAbs

def Ratio.general (r : Ratio) : List Char :=
  let s := r.significant precision
  if s.exponent < -4 ∨ (precision : Int) ≤ s.exponent then
    trimFraction (pointed (precision - 1) s.units) ++ exponentPart s.exponent
  else
    let places := (precision - 1 - s.exponent).toNat
    trimFraction (pointed places (r.scale 10 places).round)

def generalChars : Number → List Char
  | .nan => ['n', 'a', 'n']
  | .infinite negative => signed negative ['i', 'n', 'f']
  | .finite negative significand exponent =>
      signed negative
        (if significand = 0 then ['0'] else (binaryRatio significand exponent).general)

def general (x : Float) : String :=
  String.ofList (generalChars (.ofFloat x))

end BenchLog.Decimal
