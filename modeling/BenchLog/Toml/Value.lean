/-! The values of a TOML document.
Moments of time are recognised but not told apart. A table remembers how it came to be, since that
decides how it may still grow.
-/

namespace BenchLog.Toml

/-- How a table came to be. -/
inductive TableKind where
  /-- By a header of its own, or as the whole document. -/
  | explicit
  /-- By the header of a table inside it. -/
  | implied
  /-- By a dotted key. -/
  | dotted
  /-- As a value. -/
  | inline
  deriving Repr, DecidableEq

/-- A value of a document. -/
inductive Value where
  | text (value : String)
  | integer (value : Int)
  | number (value : Float)
  | boolean (value : Bool)
  | moment
  | array (items : List Value)
  | table (kind : TableKind) (entries : List (String × Value))
  /-- Tables that share a header. -/
  | tables (elements : List Value)

def lookup (key : String) : List (String × Value) → Option Value
  | [] => none
  | (name, value) :: entries => if name = key then some value else lookup key entries

/-- The entries with a value under a key, in place of the one that was there or at the end. -/
def putEntry (key : String) (value : Value) : List (String × Value) → List (String × Value)
  | [] => [(key, value)]
  | (name, old) :: entries =>
      if name = key then (key, value) :: entries else (name, old) :: putEntry key value entries

end BenchLog.Toml
