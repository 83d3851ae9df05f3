import BenchLog.Config
import BenchLog.Log.PatternGroup

/-! Reading a log through groups of patterns.
Every group is a pass over the whole text, and the data sets of the passes are summed in order.
-/

namespace BenchLog.Log

def groupOptions (settings : ParseSettings) (path : Path) : LogOptions where
  policy := settings.policy
  defaultDescription := path.text
  average := false
  labels := settings.labels

/-- Reads the lines of a text that one group of patterns keeps. -/
def readGroup (settings : ParseSettings) (path : Path) (text : String) (patterns : List String)
    : Journal DataSet := do
  Journal.trace (.filtering path.text patterns)
  ofLines (groupOptions settings path) (PatternGroup.lines ⟨patterns⟩ text)

/-- The data set of the passes so far with those of further groups merged into it. -/
def mergeGroups (settings : ParseSettings) (path : Path) (text : String)
    : List (List String) → DataSet → Journal DataSet
  | [], set => return set
  | patterns :: groups, set => do
      let next ← readGroup settings path text patterns
      let merged ← set.merge .sum next
      mergeGroups settings path text groups merged

/-- Reads a text through every group of patterns; without a group the data set is empty. -/
def readGroups (settings : ParseSettings) (path : Path) (text : String) : Journal DataSet :=
  match settings.filters with
  | [] => return .empty path.text
  | patterns :: groups => do
      let first ← readGroup settings path text patterns
      mergeGroups settings path text groups first

end BenchLog.Log
