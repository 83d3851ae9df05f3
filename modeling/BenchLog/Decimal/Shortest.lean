import BenchLog.Decimal.Fixed

/-! The fewest decimal digits from which a floating-point number can be read back.
For one digit, two and so on the two neighbours of the number on that decimal grid are tried; the
first grid with a neighbour that rounds to the number wins, and of two such the nearer.
A layout says how the digits become text.
-/

namespace BenchLog.Decimal

/-- Which of two equally near decimal numbers is taken. -/
inductive Tie where
  /-- The one with the even last digit. -/
  | even
  /-- The one farther from zero. -/
  | away
  deriving Repr, DecidableEq

/-- The numbers that round to a significand, as bounds in quarters of its unit.
They belong to the interval exactly when the significand is even. -/
structure Interval where
  low : Nat
  value : Nat
  high : Nat
  closed : Bool
  deriving Repr, DecidableEq

/-- Below the least significand of a binade the gap is half as wide. -/
def Interval.ofSignificand (significand : Nat) (exponent : Int) : Interval where
  low :=
    if significand = normalBound ∧ minExponent < exponent then 4 * significand - 1
    else 4 * significand - 2
  value := 4 * significand
  high := 4 * significand + 2
  closed := significand % 2 == 0

/-- The position of `d` units, `unit` of which make one quarter of the interval. -/
def Interval.admits (i : Interval) (unit : Ratio) (d : Nat) : Bool :=
  let position := d * unit.den
  if i.closed then
    decide (i.low * unit.num ≤ position ∧ position ≤ i.high * unit.num)
  else
    decide (i.low * unit.num < position ∧ position < i.high * unit.num)

/-- The neighbour on the grid that rounds to the number, the nearer of two. -/
def Interval.neighbour? (tie : Tie) (i : Interval) (unit : Ratio) : Option Nat :=
  let below := i.value * unit.num / unit.den
  let rest := 2 * (i.value * unit.num % unit.den)
  match i.admits unit below, i.admits unit (below + 1) with
  | true, true =>
      if rest < unit.den then some below
      else if unit.den < rest then some (below + 1)
      else
        match tie with
        | .even => some (if below % 2 = 0 then below else below + 1)
        | .away => some (below + 1)
  | true, false => some below
  | false, true => some (below + 1)
  | false, false => none

/-- A natural number of units of a power of ten. -/
structure Scaled where
  units : Nat
  exponent : Int
  deriving Repr, DecidableEq

/-- A decimal number on the first of the grids, from coarse to fine, that has one. -/
def firstNeighbour (tie : Tie) (i : Interval) (quarter : Int) : List Int → Option Scaled
  | [] => none
  | grid :: grids =>
      let unit := (Ratio.scale ⟨1, 1⟩ 2 quarter).scale 10 (-grid)
      match i.neighbour? tie unit with
      | some units => some ⟨units, grid⟩
      | none => firstNeighbour tie i quarter grids

/-- Seventeen digits are always enough to tell floating-point numbers apart. -/
def maxDigits : Nat := 17

/-- The shortest decimal number that rounds to a positive significand at an exponent. -/
def shortestDecimal (tie : Tie) (significand : Nat) (exponent : Int) : Scaled :=
  let r := binaryRatio significand exponent
  let first := r.exponent 10
  let grids := (List.range maxDigits).map fun (n : Nat) => first - (n : Int)
  let last := first - maxDigits
  (firstNeighbour tie (.ofSignificand significand exponent) (exponent - 2) grids).getD
    ⟨(r.scale 10 (-last)).round, last⟩

/-- How the digits of a number become text. -/
structure Layout where
  /-- Which of two equally near numbers is taken. -/
  tie : Tie
  /-- The exponents of the first digit for which no exponent part is written. -/
  plain : Int → Bool
  /-- Whether an integer without exponent part has a fraction of one zero. -/
  zeroFraction : Bool
  /-- The text of no number. -/
  nan : List Char

/-- Digits that begin at an exponent, written without an exponent part. -/
def Layout.plainText (l : Layout) (ds : List Char) (first : Int) : List Char :=
  if first < 0 then
    '0' :: '.' :: (List.replicate (-first - 1).toNat '0' ++ ds)
  else
    let count := first.toNat + 1
    if count < ds.length then
      ds.take count ++ '.' :: ds.drop count
    else
      ds ++ List.replicate (count - ds.length) '0' ++ (if l.zeroFraction then ['.', '0'] else [])

/-- Digits that begin at an exponent, written with an exponent part. -/
def scientificText (ds : List Char) (first : Int) : List Char :=
  let mantissa :=
    match ds with
    | [] => []
    | [d] => [d]
    | d :: rest => d :: '.' :: rest
  mantissa ++ 'e' :: (if first < 0 then '-' else '+') :: digits first.natAbs

/-- A text without the zeros at its end, of which the first character is kept. -/
def significantDigits (n : Nat) : List Char :=
  match digits n with
  | [] => []
  | d :: rest => d :: (rest.reverse.dropWhile (· == '0')).reverse

def Layout.decimalText (l : Layout) (d : Scaled) : List Char :=
  let first := d.exponent + (digits d.units).length - 1
  let ds := significantDigits d.units
  if l.plain first then l.plainText ds first else scientificText ds first

def Layout.numberText (l : Layout) : Number → List Char
  | .nan => l.nan
  | .infinite negative => signed negative ['i', 'n', 'f']
  | .finite negative significand exponent =>
      signed negative
        (if significand = 0 then l.plainText ['0'] 0
          else l.decimalText (shortestDecimal l.tie significand exponent))

/-- A floating-point value in the fewest digits, laid out. -/
def Layout.text (l : Layout) (x : Float) : String :=
  String.ofList (l.numberText (.ofFloat x))

end BenchLog.Decimal
