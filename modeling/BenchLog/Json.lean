import BenchLog.Decimal.Shortest

/-! JSON values and their two written forms.
Fields keep the order in which they are given. The compact form has no space at all; the indented
form has one item on a line, two spaces deeper than its brackets.
-/

namespace BenchLog

/-- A JSON value, with natural numbers apart from floating-point ones. -/
inductive Json where
  | bool (value : Bool)
  | natural (value : Nat)
  | number (value : Float)
  | text (value : String)
  | array (items : List Json)
  | object (fields : List (String × Json))

namespace Json

def hexPair (n : Nat) : List Char :=
  [Nat.digitChar (n / 16), Nat.digitChar (n % 16)]

/-- The characters that stand for one character inside a JSON text. -/
def escapeChar (c : Char) : List Char :=
  if c = '"' then ['\\', '"']
  else if c = '\\' then ['\\', '\\']
  else if c = '\n' then ['\\', 'n']
  else if c = '\r' then ['\\', 'r']
  else if c = '\t' then ['\\', 't']
  else if c.toNat = 8 then ['\\', 'b']
  else if c.toNat = 12 then ['\\', 'f']
  else if c.toNat < 32 then '\\' :: 'u' :: '0' :: '0' :: hexPair c.toNat
  else [c]

def quotedText (s : String) : String :=
  String.ofList ('"' :: (s.toList.flatMap escapeChar ++ ['"']))

/-- Numbers are written plainly where the first digit stands between the fifth place after the
point and the sixteenth before it, always with a fraction, and else with an exponent part. -/
def layout : Decimal.Layout where
  tie := .even
  plain := fun exponent => decide (-5 ≤ exponent ∧ exponent ≤ 15)
  zeroFraction := true
  nan := ['n', 'u', 'l', 'l']

/-- A floating-point value, null if it is no finite number. -/
def numberText (x : Float) : String :=
  match Decimal.Number.ofFloat x with
  | .finite .. => layout.text x
  | _ => "null"

mutual
def compact : Json → String
  | .bool value => if value then "true" else "false"
  | .natural value => toString value
  | .number value => numberText value
  | .text value => quotedText value
  | .array items => "[" ++ String.intercalate "," (compactItems items) ++ "]"
  | .object fields => "\x7b" ++ String.intercalate "," (compactFields fields) ++ "\x7d"

def compactItems : List Json → List String
  | [] => []
  | item :: items => compact item :: compactItems items

def compactFields : List (String × Json) → List String
  | [] => []
  | (name, value) :: fields => (quotedText name ++ ":" ++ compact value) :: compactFields fields
end

def lineBreak (depth : Nat) : String :=
  String.ofList ('\n' :: List.replicate (2 * depth) ' ')

/-- Parts between brackets at a depth, each on a line of its own. -/
def bracketed (opening closing : String) (depth : Nat) : List String → String
  | [] => opening ++ closing
  | parts =>
      opening ++ lineBreak (depth + 1)
        ++ String.intercalate ("," ++ lineBreak (depth + 1)) parts ++ lineBreak depth ++ closing

mutual
def indented (depth : Nat) : Json → String
  | .bool value => compact (.bool value)
  | .natural value => compact (.natural value)
  | .number value => compact (.number value)
  | .text value => compact (.text value)
  | .array items => bracketed "[" "]" depth (indentedItems (depth + 1) items)
  | .object fields => bracketed "\x7b" "\x7d" depth (indentedFields (depth + 1) fields)

def indentedItems (depth : Nat) : List Json → List String
  | [] => []
  | item :: items => indented depth item :: indentedItems depth items

def indentedFields (depth : Nat) : List (String × Json) → List String
  | [] => []
  | (name, value) :: fields =>
      (quotedText name ++ ": " ++ indented depth value) :: indentedFields depth fields
end

end Json

end BenchLog
