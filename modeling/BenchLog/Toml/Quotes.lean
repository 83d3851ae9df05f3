import BenchLog.Toml.Characters

/-! Texts in quotes in a TOML document.
There are four kinds: with escapes or literal, on one line or over several. In those over several
lines one or two quotes may stand inside, also right before the three that end the text.
-/

namespace BenchLog.Toml

def hexValue? (c : Char) : Option Nat :=
  if c.isDigit then some (c.toNat - '0'.toNat)
  else if 'a' ≤ c ∧ c ≤ 'f' then some (c.toNat - 'a'.toNat + 10)
  else if 'A' ≤ c ∧ c ≤ 'F' then some (c.toNat - 'A'.toNat + 10)
  else none

/-- The character whose code point is given in hexadecimal digits. -/
def scalar? (ds : List Char) : Option Char := do
  let code ← ds.foldlM (fun n c => (hexValue? c).map (16 * n + ·)) 0
  if code.isValidChar then some (Char.ofNat code) else none

/-- The character for which a letter stands after a backslash. -/
def escaped? : Char → Option Char
  | 'b' => some (Char.ofNat 8)
  | 't' => some '\t'
  | 'n' => some '\n'
  | 'f' => some (Char.ofNat 12)
  | 'r' => some '\r'
  | '"' => some '"'
  | '\\' => some '\\'
  | _ => none

/-- A text with one more character in front, read before the given rest. -/
def andThen (c : Char) : Option (List Char × List Char) → Option (List Char × List Char)
  | some (text, rest) => some (c :: text, rest)
  | none => none

/-- The rest of a text with escapes on one line, and what follows its quote. -/
def basicBody : List Char → Option (List Char × List Char)
  | [] => none
  | '"' :: rest => some ([], rest)
  | '\\' :: 'U' :: d₀ :: d₁ :: d₂ :: d₃ :: d₄ :: d₅ :: d₆ :: d₇ :: rest =>
      (scalar? [d₀, d₁, d₂, d₃, d₄, d₅, d₆, d₇]).bind fun c => andThen c (basicBody rest)
  | '\\' :: 'u' :: d₀ :: d₁ :: d₂ :: d₃ :: rest =>
      (scalar? [d₀, d₁, d₂, d₃]).bind fun c => andThen c (basicBody rest)
  | '\\' :: e :: rest => (escaped? e).bind fun c => andThen c (basicBody rest)
  | c :: rest => if isBasic c then andThen c (basicBody rest) else none

/-- The rest of a text with escapes over several lines, and what follows its quotes. After a
backslash at the end of a line, `skipping`, blanks are passed over. -/
def longBasicBody (skipping : Bool) : List Char → Option (List Char × List Char)
  | [] => none
  | '"' :: '"' :: '"' :: '"' :: '"' :: rest => some (['"', '"'], rest)
  | '"' :: '"' :: '"' :: '"' :: rest => some (['"'], rest)
  | '"' :: '"' :: '"' :: rest => some ([], rest)
  | '\\' :: 'U' :: d₀ :: d₁ :: d₂ :: d₃ :: d₄ :: d₅ :: d₆ :: d₇ :: rest =>
      (scalar? [d₀, d₁, d₂, d₃, d₄, d₅, d₆, d₇]).bind fun c => andThen c (longBasicBody false rest)
  | '\\' :: 'u' :: d₀ :: d₁ :: d₂ :: d₃ :: rest =>
      (scalar? [d₀, d₁, d₂, d₃]).bind fun c => andThen c (longBasicBody false rest)
  | '\\' :: e :: rest =>
      match escaped? e with
      | some c => andThen c (longBasicBody false rest)
      | none =>
          if (lineBreak? (skipSpace (e :: rest))).isSome then longBasicBody true (e :: rest)
          else none
  | '\r' :: '\n' :: rest =>
      if skipping then longBasicBody true rest else andThen '\n' (longBasicBody false rest)
  | c :: rest =>
      if c = '\n' then
        if skipping then longBasicBody true rest else andThen c (longBasicBody false rest)
      else if skipping && isSpace c then longBasicBody true rest
      else if isBasic c || c == '"' then andThen c (longBasicBody false rest)
      else none

/-- The rest of a literal text on one line, and what follows its quote. -/
def literalBody (cs : List Char) : Option (List Char × List Char) :=
  match cs.dropWhile isLiteral with
  | c :: rest => if c = singleQuote then some (cs.takeWhile isLiteral, rest) else none
  | [] => none

/-- The count of quotes of a kind at the start of a text. -/
def quoteRun (quote : Char) (cs : List Char) : Nat :=
  (cs.takeWhile (· == quote)).length

/-- The rest of a literal text over several lines, and what follows its quotes. -/
def longLiteralBody : List Char → Option (List Char × List Char)
  | [] => none
  | c :: rest =>
      if c = singleQuote ∧ 2 ≤ quoteRun singleQuote rest then
        let inner := min 2 (quoteRun singleQuote rest - 2)
        some (List.replicate inner singleQuote, rest.drop (inner + 2))
      else if c = '\r' then
        if rest.head? = some '\n' then longLiteralBody rest else none
      else if c = '\n' ∨ isPlain c then andThen c (longLiteralBody rest)
      else none

/-- A line break right after the opening quotes belongs to no text. -/
def skipFirstBreak (cs : List Char) : List Char :=
  (lineBreak? cs).getD cs

def shortText? : List Char → Option (List Char × List Char)
  | c :: rest =>
      if c = '"' then basicBody rest
      else if c = singleQuote then literalBody rest
      else none
  | [] => none

def text? : List Char → Option (List Char × List Char)
  | c₀ :: c₁ :: c₂ :: rest =>
      if c₀ = '"' ∧ c₁ = '"' ∧ c₂ = '"' then longBasicBody false (skipFirstBreak rest)
      else if c₀ = singleQuote ∧ c₁ = singleQuote ∧ c₂ = singleQuote then
        longLiteralBody (skipFirstBreak rest)
      else shortText? (c₀ :: c₁ :: c₂ :: rest)
  | cs => shortText? cs

end BenchLog.Toml
