import BenchLog.Toml.Scalar
import BenchLog.Toml.Table

/-! Reading a TOML document.
A document is a sequence of lines, each empty, a comment, a header or a key with its value. Values
may be nested up to a depth, and a dotted key may have up to as many parts.
-/

namespace BenchLog.Toml

/-- The count of levels from which on values and dotted keys are refused. -/
def depthLimit : Nat := 80

def keyPart? (cs : List Char) : Option (String × List Char) :=
  match cs with
  | c :: _ =>
      if c = '"' ∨ c = singleQuote then
        (shortText? cs).map fun (text, rest) => (String.ofList text, rest)
      else if isBare c then
        some (String.ofList (cs.takeWhile isBare), cs.dropWhile isBare)
      else none
  | [] => none

/-- The parts of a key between dots, with spaces around each, and what follows. -/
def keyParts? : Nat → List Char → Option (List String × List Char)
  | 0, _ => none
  | limit + 1, cs => do
      let (part, cs) ← keyPart? (skipSpace cs)
      match skipSpace cs with
      | '.' :: rest => do
          let (parts, rest) ← keyParts? limit rest
          return (part :: parts, rest)
      | rest => some ([part], rest)

/-- The parts of a key before the last one, the last one, and what follows. -/
def key? (cs : List Char) : Option (List String × String × List Char) := do
  let (parts, rest) ← keyParts? (depthLimit - 1) cs
  let last ← parts.getLast?
  return (parts.dropLast, last, rest)

/-- The items of an array up to its bracket, and what follows; `limit` bounds their count. -/
def arrayItems? (item : List Char → Option (Value × List Char))
    : Nat → List Char → Option (List Value × List Char)
  | 0, _ => none
  | limit + 1, cs =>
      match skipFiller false cs with
      | ']' :: rest => some ([], rest)
      | cs => do
          let (value, cs) ← item cs
          match skipFiller false cs with
          | ',' :: rest => do
              let (values, rest) ← arrayItems? item limit rest
              return (value :: values, rest)
          | ']' :: rest => some ([value], rest)
          | _ => none

/-- A key with its value and what follows the spaces after it. -/
def assignment? (item : List Char → Option (Value × List Char)) (cs : List Char)
    : Option (List String × String × Value × List Char) := do
  let (path, key, rest) ← key? cs
  match rest with
  | '=' :: rest => do
      let (value, rest) ← item (skipSpace rest)
      return (path, key, value, skipSpace rest)
  | _ => none

/-- A table with the entries up to the closing brace, and what follows; `limit` bounds their
count. -/
def tableEntries? (item : List Char → Option (Value × List Char))
    : Nat → Value → List Char → Option (Value × List Char)
  | 0, _, _ => none
  | limit + 1, table, cs => do
      let (path, key, value, rest) ← assignment? item cs
      let table ← assign path key value table
      match rest with
      | c :: rest =>
          if c = ',' then tableEntries? item limit table rest
          else if c = Char.ofNat 0x7D then some (table, rest)
          else none
      | [] => none

/-- A value nested in less than a number of others, and what follows. -/
def value? : Nat → List Char → Option (Value × List Char)
  | depth, cs =>
      match cs with
      | [] => none
      | c :: rest =>
          if c = '"' ∨ c = singleQuote then
            (text? cs).map fun (text, rest) => (.text (String.ofList text), rest)
          else if c = '[' then
            match depth with
            | 0 => none
            | depth + 1 =>
                (arrayItems? (value? depth) (rest.length + 1) rest).map fun (items, rest) =>
                  (.array items, rest)
          else if c = Char.ofNat 0x7B then
            match depth with
            | 0 => none
            | depth + 1 =>
                let empty := Value.table .inline []
                if (skipSpace rest).head? = some (Char.ofNat 0x7D) then
                  some (empty, (skipSpace rest).tail)
                else tableEntries? (value? depth) (rest.length + 1) empty rest
          else scalar cs

def header? (cs : List Char) : Option (Statement × List Char) :=
  match cs with
  | '[' :: '[' :: rest => do
      let (path, key, rest) ← key? rest
      match rest with
      | ']' :: ']' :: rest => return (.element path key, ← restOfLine? rest)
      | _ => none
  | '[' :: rest => do
      let (path, key, rest) ← key? rest
      match rest with
      | ']' :: rest => return (.header path key, ← restOfLine? rest)
      | _ => none
  | _ => none

/-- The document that further lines make of one; `limit` bounds their count. -/
def readLines? : Nat → Document → List Char → Option Document
  | 0, _, _ => none
  | limit + 1, d, cs =>
      match skipSpace cs with
      | [] => some d
      | '#' :: rest => do
          let rest ← restOfLine? ('#' :: rest)
          readLines? limit d rest
      | '[' :: rest => do
          let (statement, rest) ← header? ('[' :: rest)
          let d ← d.add statement
          readLines? limit d rest
      | c :: rest =>
          if c = '\n' ∨ c = '\r' then do
            let rest ← lineBreak? (c :: rest)
            readLines? limit d rest
          else do
            let (path, key, value, rest) ← assignment? (value? (depthLimit - 1)) (c :: rest)
            let rest ← restOfLine? rest
            let d ← d.add (.assignment path key value)
            readLines? limit d rest

def skipMark : List Char → List Char
  | c :: cs => if c.toNat = 0xFEFF then cs else c :: cs
  | [] => []

def read? (text : String) : Option Value :=
  let cs := skipMark text.toList
  (readLines? (cs.length + 1) .empty cs).map Document.root

end BenchLog.Toml
