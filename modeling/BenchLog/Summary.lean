import BenchLog.Command
import BenchLog.Config

/-! Summarizing one log: the repeated observations of every key become one.
The log is read before anything is written, and the only file that is written is the summary.
-/

namespace BenchLog

/-- How a summary is written. -/
inductive SummaryFormat where
  /-- As the lines of a log. -/
  | text
  /-- As indented JSON. -/
  | json
  deriving Repr, DecidableEq

namespace SummaryFormat

def all : List SummaryFormat := [.text, .json]

def name : SummaryFormat → String
  | .text => "text"
  | .json => "json"

def named? (name : String) : Option SummaryFormat :=
  all.find? fun format => format.name == name

end SummaryFormat

/-- The summary of a log. -/
structure Summary where
  path : Path
  set : DataSet
  diagnostics : List Diagnostic

namespace Summary

def options (mode : Mode) (settings : ParseSettings) (input : Path) : LogOptions where
  policy := mode.policy
  defaultDescription := (mode.path input).text
  average := true
  labels := settings.labels

def contents (format : SummaryFormat) (set : DataSet) : String :=
  match format with
  | .text => set.text
  | .json => set.toJson.indented 0

end Summary

variable {m : Type → Type} [Monad m] [Disk m]

/-- Reads the log in a file line by line; a failure is told as `failure` says. -/
def Log.ofFile (failure : Path → FileError → Failure) (options : LogOptions) (path : Path)
    : Command m (DataSet × List Diagnostic) :=
  Command.load (failure path) path (Log.ofBytes options) fun set =>
    .readFile path.text set.size set.description

/-- Writes a data set to a file; only the lines of a log are worth logging. -/
def DataSet.save (format : SummaryFormat) (path : Path) (set : DataSet) : Command m Unit := do
  let bytes := Text.bytesOfText (Summary.contents format set)
  match format with
  | .text =>
      Command.access (.writeSet path) (Disk.write path bytes)
      Command.log [.wroteSet path.text set.size]
  | .json => Command.access (.writeJson path) (Disk.write path bytes)

/-- Merges the repeated observations of a log and writes one line for each key. -/
def summarize (input output : Path) (mode : Mode) (format : SummaryFormat)
    (settings : ParseSettings)
    : Command m Summary := do
  let path := mode.path output
  Command.log [.summarizing input.text path.text mode.name]
  let (set, diagnostics) ←
    Log.ofFile .readSummaryLog (Summary.options mode settings input) input
  set.save format path
  return { path, set, diagnostics }

end BenchLog
