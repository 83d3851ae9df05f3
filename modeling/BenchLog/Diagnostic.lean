import BenchLog.Decimal.Fixed
import BenchLog.Json
import BenchLog.Text.Quoted

/-! Anomalies that do not stop the work.
Each has a message for a reader, a level at which it is logged and a tagged JSON form.
-/

namespace BenchLog

/-- The numeric fields of a data point line. -/
inductive NumericField where
  | time
  | processors
  deriving Repr, DecidableEq

def NumericField.name : NumericField → String
  | .time => "time"
  | .processors => "P"

/-- How much attention an event asks for. -/
inductive Level where
  | error
  | warn
  | info
  | debug
  deriving Repr, DecidableEq

def Level.name : Level → String
  | .error => "ERROR"
  | .warn => "WARN"
  | .info => "INFO"
  | .debug => "DEBUG"

/-- An anomaly in the data of benchmark runs. -/
inductive Diagnostic where
  /-- A line has the shape of a data point but another tag. -/
  | tagMismatch (line : String)
  /-- A line has the shape and the tag of a data point but a field that is no number. -/
  | malformedField (line : String) (field : NumericField) (value : String)
  /-- A point without benchmark is dropped. -/
  | invalidPoint (point : String)
  /-- Two points with different keys are not merged. -/
  | keyMismatch (existing incoming : String)
  /-- A key occurs again where each may occur once. -/
  | duplicatePoint (key existing incoming : String)
  /-- A log describes itself a second time and differently. -/
  | descriptionConflict (current found : String)
  /-- Two data sets with different descriptions are merged. -/
  | descriptionMismatch (ours theirs : String)
  /-- A comparison meets an average time that is not positive. -/
  | suspiciousTimes (key : String) (baseline new : Float)
  /-- A key occurs only in the newer data set of a comparison. -/
  | newDataPoint (key : String)
  deriving Repr, BEq

namespace Diagnostic

def message : Diagnostic → String
  | .tagMismatch line => "line [" ++ line ++ "] matched, but prefix does not match"
  | .malformedField line field value =>
      "line [" ++ line ++ "] has a malformed " ++ field.name ++ " field: " ++ Text.quoted value
  | .invalidPoint point => "found invalid point: " ++ point
  | .keyMismatch existing incoming =>
      "trying to merge other point with key " ++ incoming ++ " into this point with key "
        ++ existing
  | .duplicatePoint key existing incoming =>
      "duplicate data point " ++ key ++ ": existing = " ++ existing ++ ", new = " ++ incoming
  | .descriptionConflict current found =>
      "desc = " ++ current ++ ". Found another description " ++ found
  | .descriptionMismatch ours theirs =>
      "merging data set " ++ Text.quoted theirs ++ " into data set " ++ Text.quoted ours
  | .suspiciousTimes key baseline new =>
      "suspicious data point " ++ key ++ " with btime = " ++ Decimal.fixed 6 baseline
        ++ ", ntime = " ++ Decimal.fixed 6 new
  | .newDataPoint key => "new data point: " ++ key

/-- A new point is no fault and mismatched keys are one of the program; the rest are warnings. -/
def level : Diagnostic → Level
  | .keyMismatch .. => .error
  | .newDataPoint .. => .info
  | _ => .warn

/-- An object whose first field names the kind of anomaly. -/
def tagged (kind : String) (fields : List (String × Json)) : Json :=
  .object (("kind", .text kind) :: fields)

def toJson : Diagnostic → Json
  | .tagMismatch line => tagged "prefix_mismatch" [("line", .text line)]
  | .malformedField line field value =>
      tagged "malformed_field"
        [("line", .text line), ("field", .text field.name), ("value", .text value)]
  | .invalidPoint point => tagged "invalid_point" [("point", .text point)]
  | .keyMismatch existing incoming =>
      tagged "key_mismatch" [("existing", .text existing), ("incoming", .text incoming)]
  | .duplicatePoint key existing incoming =>
      tagged "duplicate_point"
        [("key", .text key), ("existing", .text existing), ("incoming", .text incoming)]
  | .descriptionConflict current found =>
      tagged "description_conflict" [("current", .text current), ("found", .text found)]
  | .descriptionMismatch ours theirs =>
      tagged "description_mismatch" [("ours", .text ours), ("theirs", .text theirs)]
  | .suspiciousTimes key baseline new =>
      tagged "suspicious_times"
        [("key", .text key), ("baseline", .number baseline), ("new", .number new)]
  | .newDataPoint key => tagged "new_data_point" [("key", .text key)]

end Diagnostic

end BenchLog
