import BenchLog.Toml.Value

/-! How the tables of a TOML document grow.
Headers open tables and keys put values into them. Dotted keys may go on only in tables that no
header of their own has opened, and no key or header may be used twice.
-/

namespace BenchLog.Toml

/-- The table to which a step leads: the one that is there, a new one, or the last of those that
share a header. -/
def childTable? (dotted : Bool) (key : String) (entries : List (String × Value)) : Option Value :=
  match lookup key entries with
  | none => some (.table (if dotted then .dotted else .implied) [])
  | some (.table kind inner) =>
      if kind = .inline ∨ (dotted ∧ kind = .explicit) then none else some (.table kind inner)
  | some (.tables elements) => elements.getLast?
  | some _ => none

/-- The value under a key after the table to which the key leads has changed. -/
def replaceChild (old : Option Value) (new : Value) : Value :=
  match old with
  | some (.tables elements) => .tables (elements.dropLast ++ [new])
  | _ => new

def changeAt (dotted : Bool) (change : Value → Option Value) : List String → Value → Option Value
  | [], value => change value
  | key :: path, .table kind entries => do
      let child ← childTable? dotted key entries
      let changed ← changeAt dotted change path child
      return .table kind (putEntry key (replaceChild (lookup key entries) changed) entries)
  | _ :: _, _ => none

/-- A table with one more value, which a dotted key leads to or a plain one. -/
def addValue (dotted : Bool) (key : String) (value : Value) : Value → Option Value
  | .table kind entries =>
      if (kind == .dotted) == dotted && (lookup key entries).isNone then
        some (.table kind (putEntry key value entries))
      else none
  | _ => none

def assign (path : List String) (key : String) (value : Value) : Value → Option Value :=
  changeAt true (addValue (!path.isEmpty) key value) path

def openTable (key : String) : Value → Option Value
  | .table kind entries =>
      match lookup key entries with
      | none => some (.table kind (putEntry key (.table .explicit []) entries))
      | some (.table .implied inner) =>
          some (.table kind (putEntry key (.table .explicit inner) entries))
      | some _ => none
  | _ => none

def openElement (key : String) : Value → Option Value
  | .table kind entries =>
      match lookup key entries with
      | none => some (.table kind (putEntry key (.tables [.table .explicit []]) entries))
      | some (.tables elements) =>
          some (.table kind (putEntry key (.tables (elements ++ [.table .explicit []])) entries))
      | some _ => none
  | _ => none

/-- A line of a document that says something. -/
inductive Statement where
  /-- The following keys belong to a table. -/
  | header (path : List String) (key : String)
  /-- The following keys belong to one more of the tables under a header. -/
  | element (path : List String) (key : String)
  /-- A key has a value. -/
  | assignment (path : List String) (key : String) (value : Value)

/-- A document and the path of the table to which keys belong. -/
structure Document where
  root : Value
  current : List String

namespace Document

def empty : Document :=
  ⟨.table .explicit [], []⟩

def add (d : Document) : Statement → Option Document
  | .header path key => do
      let root ← changeAt false (openTable key) path d.root
      return ⟨root, path ++ [key]⟩
  | .element path key => do
      let root ← changeAt false (openElement key) path d.root
      return ⟨root, path ++ [key]⟩
  | .assignment path key value => do
      let root ← changeAt false (assign path key value) d.current d.root
      return { d with root }

end Document

end BenchLog.Toml
