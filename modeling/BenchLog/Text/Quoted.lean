import BenchLog.Text.Extending

/-! Texts in double quotes, as messages show them.
Inside the quotes every character can be seen: what would end the quotes, leave no mark or cling to
its neighbour is written as an escape.
-/

namespace BenchLog.Text

/-- A number in lower-case hexadecimal digits without padding. -/
def hexDigits (n : Nat) : List Char :=
  Nat.toDigits 16 n

/-- The characters that stand for one character inside quotes. -/
def quoteChar (c : Char) : List Char :=
  if c = '"' then ['\\', '"']
  else if c = '\\' then ['\\', '\\']
  else if c = '\n' then ['\\', 'n']
  else if c = '\r' then ['\\', 'r']
  else if c = '\t' then ['\\', 't']
  else if c.toNat = 0 then ['\\', '0']
  else if isExtending c || isUnprintable c then
    '\\' :: 'u' :: Char.ofNat 0x7B :: (hexDigits c.toNat ++ [Char.ofNat 0x7D])
  else [c]

def quoted (s : String) : String :=
  String.ofList ('"' :: (s.toList.flatMap quoteChar ++ ['"']))

/-- A list of texts, each in double quotes, between brackets. -/
def quotedList (texts : List String) : String :=
  "[" ++ String.intercalate ", " (texts.map quoted) ++ "]"

end BenchLog.Text
