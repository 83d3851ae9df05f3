import BenchLog.Decimal.Read
import BenchLog.Toml.Quotes
import BenchLog.Toml.Value

/-! Numbers and moments of time in a TOML document.
Digits may be divided by single underscores. An integer has 64 bits, and a number must not exceed
every finite one.
-/

namespace BenchLog.Toml

/-- The digits at the start of a text, between which underscores may stand, and what follows. -/
def digitRun (isDigit : Char → Bool) : List Char → Option (List Char × List Char)
  | [] => some ([], [])
  | [c] =>
      if isDigit c then some ([c], []) else if c = '_' then none else some ([], [c])
  | c :: d :: cs =>
      if c = '_' then if isDigit d then digitRun isDigit (d :: cs) else none
      else if isDigit c then andThen c (digitRun isDigit (d :: cs))
      else some ([], c :: d :: cs)

/-- One digit or more at the start of a text, and what follows. -/
def someDigits? (isDigit : Char → Bool) : List Char → Option (List Char × List Char)
  | c :: cs => if isDigit c then digitRun isDigit (c :: cs) else none
  | [] => none

/-- A sign as it is written, if there is one, and what follows. -/
def signText : List Char → List Char × List Char
  | '-' :: cs => (['-'], cs)
  | '+' :: cs => (['+'], cs)
  | cs => ([], cs)

/-- The digits of a decimal integer, with no zero in front of others, and what follows. -/
def wholeDigits? : List Char → Option (List Char × List Char)
  | '0' :: cs => some (['0'], cs)
  | cs => someDigits? Char.isDigit cs

def fractionText? : List Char → Option (List Char × List Char)
  | '.' :: cs => (someDigits? Char.isDigit cs).map fun (ds, rest) => ('.' :: ds, rest)
  | _ => none

/-- An exponent part with its letter, and what follows. -/
def exponentText? : List Char → Option (List Char × List Char)
  | c :: cs =>
      if c = 'e' ∨ c = 'E' then
        let (sign, cs) := signText cs
        (someDigits? Char.isDigit cs).map fun (ds, rest) => ('e' :: (sign ++ ds), rest)
      else none
  | [] => none

/-- A number with a fraction or an exponent part or both, and what follows. -/
def numeral? (cs : List Char) : Option (List Char × List Char) := do
  let (sign, cs) := signText cs
  let (whole, cs) ← wholeDigits? cs
  match fractionText? cs with
  | some (fraction, cs) =>
      let (exponent, cs) := (exponentText? cs).getD ([], cs)
      some (sign ++ whole ++ fraction ++ exponent, cs)
  | none => (exponentText? cs).map fun (exponent, cs) => (sign ++ whole ++ exponent, cs)

def word? (word : List Char) (cs : List Char) : Option (List Char) :=
  if word.isPrefixOf cs then some (cs.drop word.length) else none

/-- The infinity or no number, with a sign or without, and what follows. -/
def special? (cs : List Char) : Option (Float × List Char) :=
  let (sign, cs) := signText cs
  match word? ['i', 'n', 'f'] cs with
  | some rest => some (Decimal.floatOfCode (sign == ['-']) Decimal.infiniteCode, rest)
  | none => (word? ['n', 'a', 'n'] cs).map fun rest => (Decimal.notANumber, rest)

def ofDigits (base : Nat) (ds : List Char) : Nat :=
  ds.foldl (fun n c => base * n + (hexValue? c).getD 0) 0

def bounded? (n : Int) : Option Value :=
  if -0x8000000000000000 ≤ n ∧ n < 0x8000000000000000 then some (.integer n) else none

def isDigitOf (base : Nat) (c : Char) : Bool :=
  match hexValue? c with
  | some n => decide (n < base)
  | none => false

/-- An integer in a base other than ten, after its mark, and what follows. -/
def based? (base : Nat) (cs : List Char) : Option (Value × List Char) := do
  let (ds, rest) ← someDigits? (isDigitOf base) cs
  let value ← bounded? (ofDigits base ds)
  return (value, rest)

def integer? : List Char → Option (Value × List Char)
  | '0' :: 'x' :: cs => based? 16 cs
  | '0' :: 'o' :: cs => based? 8 cs
  | '0' :: 'b' :: cs => based? 2 cs
  | cs => do
      let (sign, cs) := signText cs
      let (ds, rest) ← wholeDigits? cs
      let n : Int := ofDigits 10 ds
      let value ← bounded? (if sign = ['-'] then -n else n)
      return (value, rest)

/-- A number of exactly two digits between bounds, and what follows. -/
def twoDigits? (low high : Nat) : List Char → Option (Nat × List Char)
  | a :: b :: rest =>
      let n := ofDigits 10 [a, b]
      if a.isDigit ∧ b.isDigit ∧ low ≤ n ∧ n ≤ high then some (n, rest) else none
  | _ => none

def expect? (c : Char) : List Char → Option (List Char)
  | d :: rest => if d = c then some rest else none
  | [] => none

def daysOf (year month : Nat) : Nat :=
  if month = 2 then
    if year % 4 = 0 ∧ (year % 100 ≠ 0 ∨ year % 400 = 0) then 29 else 28
  else if month = 4 ∨ month = 6 ∨ month = 9 ∨ month = 11 then 30
  else 31

def date? : List Char → Option (List Char)
  | a :: b :: c :: d :: rest => do
      let century ← twoDigits? 0 99 [a, b]
      let year ← twoDigits? 0 99 [c, d]
      let rest ← expect? '-' rest
      let (month, rest) ← twoDigits? 1 12 rest
      let rest ← expect? '-' rest
      let (day, rest) ← twoDigits? 1 31 rest
      if day ≤ daysOf (100 * century.1 + year.1) month then some rest else none
  | _ => none

def time? (cs : List Char) : Option (List Char) := do
  let (_, rest) ← twoDigits? 0 23 cs
  let rest ← expect? ':' rest
  let (_, rest) ← twoDigits? 0 59 rest
  let rest ← expect? ':' rest
  let (_, rest) ← twoDigits? 0 60 rest
  match rest with
  | '.' :: d :: more => some (if d.isDigit then more.dropWhile Char.isDigit else rest)
  | _ => some rest

def offset? : List Char → Option (List Char)
  | c :: rest =>
      if c = 'Z' ∨ c = 'z' then some rest
      else if c = '+' ∨ c = '-' then do
        let (_, rest) ← twoDigits? 0 23 rest
        let rest ← expect? ':' rest
        let (_, rest) ← twoDigits? 0 59 rest
        return rest
      else none
  | [] => none

/-- What follows a date with or without a time of day, or a time of day alone. -/
def moment? (cs : List Char) : Option (List Char) :=
  match date? cs with
  | none => time? cs
  | some rest =>
      match rest with
      | c :: more =>
          if c = 'T' ∨ c = 't' ∨ c = ' ' then
            match time? more with
            | some rest => some ((offset? rest).getD rest)
            | none => some rest
          else some rest
      | [] => some []

def numberOrMoment? (cs : List Char) : Option (Value × List Char) :=
  match moment? cs with
  | some rest => some (.moment, rest)
  | none =>
      match numeral? cs with
      | some (text, rest) => do
          let x ← Decimal.readFloatChars? text
          if x == Decimal.floatOfCode false Decimal.infiniteCode then none
          else some (.number x, rest)
      | none =>
          match special? cs with
          | some (x, rest) => some (.number x, rest)
          | none => integer? cs

/-- A value other than a text, an array or a table, and what follows. -/
def scalar (cs : List Char) : Option (Value × List Char) :=
  match cs with
  | [] => none
  | c :: _ =>
      if c = 't' then (word? "true".toList cs).map fun rest => (.boolean true, rest)
      else if c = 'f' then (word? "false".toList cs).map fun rest => (.boolean false, rest)
      else if c.isDigit ∨ c = '+' ∨ c = '-' then numberOrMoment? cs
      else (special? cs).map fun (x, rest) => (.number x, rest)

end BenchLog.Toml
