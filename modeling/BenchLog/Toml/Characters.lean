/-! The characters of a TOML document and what separates its parts.
Control characters other than the tab stand nowhere, and a return only before a line feed.
-/

namespace BenchLog.Toml

def isSpace (c : Char) : Bool :=
  c == ' ' || c == '\t'

/-- A character that may stand in a comment. -/
def isPlain (c : Char) : Bool :=
  c == '\t' || (0x20 ≤ c.toNat && c.toNat != 0x7F)

def singleQuote : Char := Char.ofNat 0x27

/-- A character that may stand unescaped in a text with escapes. -/
def isBasic (c : Char) : Bool :=
  isPlain c && c != '"' && c != '\\'

def isLiteral (c : Char) : Bool :=
  isPlain c && c != singleQuote

/-- A character of a key without quotes. -/
def isBare (c : Char) : Bool :=
  c.isAlphanum || c == '-' || c == '_'

def skipSpace (cs : List Char) : List Char :=
  cs.dropWhile isSpace

def lineBreak? : List Char → Option (List Char)
  | '\n' :: rest => some rest
  | '\r' :: '\n' :: rest => some rest
  | _ => none

/-- What follows a line break, or nothing at the end of the document. -/
def lineEnd? : List Char → Option (List Char)
  | [] => some []
  | cs => lineBreak? cs

/-- What follows the spaces, the comment and the end of a line. -/
def restOfLine? (cs : List Char) : Option (List Char) :=
  match skipSpace cs with
  | '#' :: rest => lineEnd? (rest.dropWhile isPlain)
  | rest => lineEnd? rest

/-- What follows spaces, line breaks and comments; `comment` tells whether a comment is open. -/
def skipFiller (comment : Bool) : List Char → List Char
  | [] => []
  | c :: cs =>
      if c = '\n' then skipFiller false cs
      else if c = '\r' ∧ cs.head? = some '\n' then skipFiller false cs
      else if comment then (if isPlain c then skipFiller true cs else c :: cs)
      else if isSpace c then skipFiller false cs
      else if c = '#' then skipFiller true cs
      else c :: cs

end BenchLog.Toml
