import BenchLog.KeyMap
import BenchLog.Point.Line
import BenchLog.Point.Merge

/-! The points of one run, at most one for each key, with a description of the run.
Points are put in one after the other and merged where their keys meet.
-/

namespace BenchLog

/-- The points of a run by key. -/
structure DataSet where
  description : String
  points : KeyMap Point
  deriving Repr, BEq

namespace DataSet

def empty (description : String) : DataSet :=
  ⟨description, []⟩

/-- The data set with a point under a key, merged into the one that is there. -/
def mergeAt (policy : Policy) (k : Key) (p : Point) (set : DataSet) : Journal DataSet :=
  match set.points.get? k with
  | none => return { set with points := set.points.put k p }
  | some existing => do
      let merged ← existing.merge policy p
      return { set with points := set.points.put k merged }

/-- The data set with one more point; a point without benchmark is dropped and reported. -/
def insert (policy : Policy) (p : Point) (set : DataSet) : Journal DataSet :=
  if p.isValid then set.mergeAt policy p.key p
  else do
    Journal.note (.invalidPoint p.describe)
    return set

/-- The data set with more points, put in in their order. -/
def insertAll (policy : Policy) : List Point → DataSet → Journal DataSet
  | [], set => return set
  | p :: points, set => do
      let next ← set.insert policy p
      next.insertAll policy points

def ofPoints (description : String) (policy : Policy) (points : List Point) : Journal DataSet :=
  (empty description).insertAll policy points

/-- The data set with the entries of another, put in in ascending order of their keys. -/
def mergeEntries (policy : Policy) : KeyMap Point → DataSet → Journal DataSet
  | [], set => return set
  | (k, p) :: entries, set => do
      let next ← set.mergeAt policy k p
      next.mergeEntries policy entries

/-- The data set with another merged into it; a differing description is reported. -/
def merge (policy : Policy) (set other : DataSet) : Journal DataSet := do
  if set.description ≠ other.description then
    Journal.note (.descriptionMismatch set.description other.description)
  set.mergeEntries policy other.points

def averaged (set : DataSet) : DataSet :=
  { set with points := set.points.mapValues Point.averaged }

/-- The data set with the mean of every point without its extremes. -/
def trimmed (set : DataSet) : DataSet :=
  { set with points := set.points.mapValues Point.trimmed }

def size (set : DataSet) : Nat :=
  set.points.length

def get? (set : DataSet) (k : Key) : Option Point :=
  set.points.get? k

def keys (set : DataSet) : List Key :=
  set.points.keys

/-- The line that describes the run. -/
def headerLine (set : DataSet) : String :=
  "# Branch = " ++ set.description

/-- The lines that stand for a data set: its description and its points in order. -/
def textLines (set : DataSet) : List String :=
  set.headerLine :: set.points.values.map Point.line

/-- The text that stands for a data set, every line ended by a line feed. -/
def text (set : DataSet) : String :=
  String.join (set.textLines.map fun line => line ++ "\n")

/-- A data set as an object of its description and the list of its points. -/
def toJson (set : DataSet) : Json :=
  .object
    [("description", .text set.description), ("points", .array (set.points.values.map Point.toJson))]

end DataSet

end BenchLog
