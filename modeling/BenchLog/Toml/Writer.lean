import BenchLog.Decimal.Shortest
import BenchLog.Toml.Characters

/-! Writing TOML values.
A text is written with the plainest quotes that suit it: first those in which nothing but tabs has
to be escaped, on several lines if it has line feeds, and with other escapes only if need be.
-/

namespace BenchLog.Toml

/-- A character that stands for nothing in a text: all controls but the tab and the line feed. -/
def isControl (c : Char) : Bool :=
  (c.toNat < 0x20 && c != '\t' && c != '\n') || c.toNat == 0x7F

def longestRun (quote : Char) (cs : List Char) : Nat :=
  (cs.foldl (fun (best, run) c => if c = quote then (max best (run + 1), run + 1) else (best, 0))
    (0, 0)).1

def fourHexDigits (n : Nat) : List Char :=
  [n / 4096 % 16, n / 256 % 16, n / 16 % 16, n % 16].map fun d => (Nat.digitChar d).toUpper

/-- The characters that stand for one other than a quote inside quotes with escapes; a line feed is
kept on several lines. -/
def escapeChar (several : Bool) (c : Char) : List Char :=
  if c = '\\' then ['\\', '\\']
  else if c = '\n' then (if several then ['\n'] else ['\\', 'n'])
  else if c = '\t' then ['\\', 't']
  else if c = '\r' then ['\\', 'r']
  else if c.toNat = 8 then ['\\', 'b']
  else if c.toNat = 12 then ['\\', 'f']
  else if isControl c then '\\' :: 'u' :: fourHexDigits c.toNat
  else [c]

/-- The characters that stand for a text inside quotes with escapes, of which `run` bare quotes come
right before; on several lines two in a row stay bare. -/
def escapeText (long : Bool) (run : Nat) : List Char → List Char
  | [] => []
  | c :: cs =>
      if c = '"' then
        if long && decide (run < 2) then '"' :: escapeText long (run + 1) cs
        else '\\' :: '"' :: escapeText long 0 cs
      else escapeChar long c ++ escapeText long 0 cs

/-- Characters between single quotes of their own kind, or three of them. -/
def enclose (quote : Char) (long : Bool) (cs : List Char) : List Char :=
  let quotes := List.replicate (if long then 3 else 1) quote
  quotes ++ cs ++ quotes

def textChars (cs : List Char) : List Char :=
  let controls := cs.any isControl
  let several := cs.contains '\n'
  let doubles := longestRun '"' cs
  let singles := longestRun singleQuote cs
  let opening := if several then ['\n'] else []
  if !controls && !several && doubles == 0 && !cs.contains '\\' then
    enclose '"' false (escapeText false 0 cs)
  else if !controls && !several && singles == 0 then
    enclose singleQuote false cs
  else if !controls && doubles ≤ 2 && !cs.contains '\\' then
    enclose '"' true (opening ++ escapeText true 0 cs)
  else if !controls && singles ≤ 2 then
    enclose singleQuote true (opening ++ cs)
  else
    enclose '"' several (opening ++ escapeText several 0 cs)

def textValue (s : String) : String :=
  String.ofList (textChars s.toList)

/-- Numbers are written without an exponent part and always with a fraction. -/
def layout : Decimal.Layout where
  tie := .away
  plain := fun _ => true
  zeroFraction := true
  nan := ['n', 'a', 'n']

def numberValue (x : Float) : String :=
  layout.text x

def booleanValue (b : Bool) : String :=
  if b then "true" else "false"

def arrayValue (values : List String) : String :=
  "[" ++ String.intercalate ", " values ++ "]"

end BenchLog.Toml
