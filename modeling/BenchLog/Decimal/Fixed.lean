import BenchLog.Decimal.Binary

/-! Decimal texts with a given number of places after the point.
The exact value is rounded once, half to even, and the sign of a negative zero is kept.
-/

namespace BenchLog.Decimal

def digits (n : Nat) : List Char :=
  Nat.toDigits 10 n

/-- The digits of a number, filled up with zeros on the left to a width. -/
def paddedDigits (width n : Nat) : List Char :=
  List.replicate (width - (digits n).length) '0' ++ digits n

/-- The text of `n` units of the last of some places. -/
def pointed (places n : Nat) : List Char :=
  if places = 0 then digits n
  else digits (n / Nat.pow 10 places) ++ '.' :: paddedDigits places (n % Nat.pow 10 places)

def signed (negative : Bool) (text : List Char) : List Char :=
  if negative then '-' :: text else text

/-- A number with the given count of places after the point. -/
def fixedChars (places : Nat) : Number → List Char
  | .nan => ['N', 'a', 'N']
  | .infinite negative => signed negative ['i', 'n', 'f']
  | .finite negative significand exponent =>
      signed negative
        (pointed places ((binaryRatio significand exponent).scale 10 places).round)

/-- A floating-point value with the given count of places after the point. -/
def fixed (places : Nat) (x : Float) : String :=
  String.ofList (fixedChars places (.ofFloat x))

end BenchLog.Decimal
