import BenchLog.Diagnostic
import BenchLog.Policy

/-! What is logged while logs are read, merged, compared and written.
Every anomaly is an event, and so is the completion of each larger step.
-/

namespace BenchLog

/-- Something worth logging. -/
inductive Event where
  /-- An anomaly was met. -/
  | anomaly (d : Diagnostic)
  /-- A line gave a value to a label that is not asked for. -/
  | ignoredLine (text : String)
  /-- The lines of a log were read. -/
  | readPoints (count : Nat) (policy : Policy)
  /-- A log file was read into a data set. -/
  | readFile (path : String) (count : Nat) (description : String)
  /-- A data set was written. -/
  | wroteSet (path : String) (count : Nat)
  /-- A summary begins. -/
  | summarizing (input output mode : String)
  /-- A log is read through a group of patterns. -/
  | filtering (path : String) (patterns : List String)
  /-- All groups of a log were read and merged. -/
  | loadedSet (path : String) (count : Nat)
  /-- Points of the baseline are missing from the newer set. -/
  | droppedPoints (count : Nat)
  /-- The report of a comparison was written. -/
  | wroteReport (path : String) (count : Nat)
  /-- The command met anomalies. -/
  | sawAnomalies (count : Nat)
  deriving BEq

namespace Event

def level : Event → Level
  | .anomaly d => d.level
  | .ignoredLine .. | .readPoints .. | .wroteSet .. | .filtering .. | .droppedPoints .. => .debug
  | .readFile .. | .summarizing .. | .loadedSet .. | .wroteReport .. => .info
  | .sawAnomalies .. => .warn

/-- The text of an event: a message and its named values. -/
def text : Event → String
  | .anomaly d => d.message
  | .ignoredLine text => "ignoring line line=" ++ text
  | .readPoints count policy =>
      "read data points points=" ++ toString count ++ " policy=" ++ policy.name
  | .readFile path count description =>
      "parsed data file path=" ++ path ++ " points=" ++ toString count
        ++ " description=" ++ Text.quoted description
  | .wroteSet path count => "wrote data set path=" ++ path ++ " points=" ++ toString count
  | .summarizing input output mode =>
      "summarizing input=" ++ input ++ " output=" ++ output ++ " mode=" ++ mode
  | .filtering path patterns =>
      "filtering path=" ++ path ++ " patterns=" ++ Text.quotedList patterns
  | .loadedSet path count => "loaded data set path=" ++ path ++ " points=" ++ toString count
  | .droppedPoints count =>
      "baseline points absent from the new run dropped=" ++ toString count
  | .wroteReport path count =>
      "wrote diff report output=" ++ path ++ " entries=" ++ toString count
  | .sawAnomalies count => "input contained anomalies count=" ++ toString count

/-- An event in one row, its level first. -/
def row (e : Event) : String :=
  e.level.name ++ " " ++ e.text

def anomaly? : Event → Option Diagnostic
  | .anomaly d => some d
  | _ => none

end Event

end BenchLog
