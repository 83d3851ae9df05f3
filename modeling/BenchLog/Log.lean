import BenchLog.DataSet
import BenchLog.Text.Lines
import BenchLog.Text.Utf8

/-! Reading the log of a run into a data set.
Every line is a point, or may describe the run, or is passed over. The first description counts,
and a later one that differs is reported.
-/

namespace BenchLog

/-- What a line that gives a value to a label says. -/
inductive LabelLine where
  /-- The line does not have exactly one equals sign. -/
  | unrelated
  /-- The label is not asked for; the text is the line without its comment signs. -/
  | ignored (text : String)
  /-- The value of a label that is asked for. -/
  | value (text : String)
  deriving Repr, DecidableEq

namespace LabelLine

/-- A line with a space in place of every comment sign. -/
def uncomment (cs : List Char) : List Char :=
  cs.map fun c => if c = '#' then ' ' else c

/-- What a line says to someone who asks for labels, whose case is not looked at. -/
def ofLine (labels : List String) (line : String) : LabelLine :=
  let cs := uncomment line.toList
  match cs.takeWhile (· != '='), cs.dropWhile (· != '=') with
  | label, _ :: rest =>
      if rest.contains '=' then .unrelated
      else if labels.any (Text.sameLetters (String.ofList (Text.trimChars label))) then
        .value (String.ofList (Text.trimChars rest))
      else .ignored (String.ofList (Text.trimChars cs))
  | _, [] => .unrelated

end LabelLine

/-- The value that a line gives to one of the labels; a line with another label is logged. -/
def describedBy (labels : List String) (line : String) : Journal (Option String) :=
  match LabelLine.ofLine labels line with
  | .unrelated => return none
  | .ignored text => do
      Journal.trace (.ignoredLine text)
      return none
  | .value text => return some text

/-- How a log is read. -/
structure LogOptions where
  /-- What becomes of points with the same key. -/
  policy : Policy
  /-- The description of a log that has none. -/
  defaultDescription : String
  /-- Whether every point becomes its mean in the end. -/
  average : Bool
  /-- The labels that describe a run. -/
  labels : List String

namespace Log

/-- The labels that describe a run if no others are given. -/
def defaultLabels : List String := ["version", "branch"]

/-- The description of a log after one more was found, which counts if it is the first one. -/
def settle (current : Option String) (found : String) : Journal (Option String) :=
  match current with
  | none => return some found
  | some description => do
      if description ≠ found then Journal.note (.descriptionConflict description found)
      return some description

/-- The description and the points of lines, given the description found before them. -/
def scan (labels : List String)
    : Option String → List String → Journal (Option String × List Point)
  | description, [] => return (description, [])
  | description, line :: lines => do
      let read := Recognition.ofNamedLine line
      Journal.note? read.anomaly?
      match read.point? with
      | some p =>
          let (description, points) ← scan labels description lines
          return (description, p :: points)
      | none =>
          match ← describedBy labels line with
          | some found =>
              if found = "" then scan labels description lines
              else
                let description ← settle description found
                scan labels description lines
          | none => scan labels description lines

def ofLines (options : LogOptions) (lines : List String) : Journal DataSet := do
  let (description, points) ← scan options.labels none lines
  Journal.trace (.readPoints points.length options.policy)
  let set ←
    DataSet.ofPoints (description.getD options.defaultDescription) options.policy points
  return if options.average then set.averaged else set

def ofText (options : LogOptions) (text : String) : Journal DataSet :=
  ofLines options (Text.lines text)

/-- The data set of a log given as bytes, each line decoded by itself. -/
def ofBytes (options : LogOptions) (bytes : List UInt8) : Journal DataSet :=
  ofLines options ((Text.byteLines bytes).map Text.textOfBytes)

end Log

end BenchLog
