import BenchLog.DataSet

/-! Comparing the data set of a run against that of a baseline.
Every key of the newer set is either compared or new. A comparison in which a time is not positive
has no meaningful percentage and gets one that exceeds every threshold.
-/

namespace BenchLog

/-- From which change in percent on an entry is listed. -/
structure Thresholds where
  /-- For being slower or faster. -/
  large : Float
  /-- For being changed. -/
  report : Float
  deriving Repr, BEq

/-- The comparison of the two points of one key. -/
structure Entry where
  key : Key
  /-- The text that stands for the key in a row. -/
  label : String
  baselineTime : Float
  newTime : Float
  percentDiff : Float
  /-- One of the times is not positive. -/
  suspicious : Bool
  deriving Repr, BEq

/-- The comparison of two data sets. -/
structure Report where
  baselineDescription : String
  newDescription : String
  thresholds : Thresholds
  /-- The compared keys in ascending order. -/
  entries : List Entry
  /-- The keys of the newer set alone, in ascending order. -/
  newPoints : List Key
  /-- The anomalies of the comparison. -/
  diagnostics : List Diagnostic

namespace Thresholds

/-- The thresholds that apply if no others are given. -/
def standard : Thresholds := ⟨5, 1⟩

def toJson (t : Thresholds) : Json :=
  .object [("large", .number t.large), ("report", .number t.report)]

end Thresholds

namespace Entry

def suspiciousPercent : Float := 1e300

/-- Times that cannot be compared, since one of them is not positive. -/
def isSuspicious (baselineTime newTime : Float) : Bool :=
  !(decide (baselineTime > 0) && decide (newTime > 0))

def percent (baselineTime newTime : Float) : Float :=
  if isSuspicious baselineTime newTime then suspiciousPercent
  else (newTime - baselineTime) * 100 / baselineTime

def ofPoints (key : Key) (baseline new : Point) : Entry where
  key := key
  label := baseline.keyText
  baselineTime := baseline.trimmedAverage
  newTime := new.trimmedAverage
  percentDiff := percent baseline.trimmedAverage new.trimmedAverage
  suspicious := isSuspicious baseline.trimmedAverage new.trimmedAverage

/-- The report of an entry that is suspicious. -/
def anomaly? (e : Entry) : Option Diagnostic :=
  if e.suspicious then some (.suspiciousTimes e.label e.baselineTime e.newTime) else none

def toJson (e : Entry) : Json :=
  .object
    [("key", e.key.toJson), ("label", .text e.label), ("baseline_time", .number e.baselineTime),
      ("new_time", .number e.newTime), ("percent_diff", .number e.percentDiff),
      ("suspicious", .bool e.suspicious)]

def isSlower (t : Thresholds) (e : Entry) : Bool :=
  decide (e.percentDiff ≥ t.large)

/-- The change reaches the threshold downwards and not upwards. -/
def isFaster (t : Thresholds) (e : Entry) : Bool :=
  decide (e.percentDiff < t.large) && decide (e.percentDiff ≤ -t.large)

/-- The change reaches the lower threshold in either direction. -/
def isChanged (t : Thresholds) (e : Entry) : Bool :=
  decide (e.percentDiff.abs ≥ t.report)

end Entry

namespace Report

/-- The compared and the new ones among the points of the newer set, in their order. -/
def compareEntries (baseline : DataSet) : KeyMap Point → Journal (List Entry × List Key)
  | [] => return ([], [])
  | (k, new) :: points =>
      match baseline.get? k with
      | none => do
          Journal.note (.newDataPoint new.keyText)
          let (entries, keys) ← compareEntries baseline points
          return (entries, k :: keys)
      | some old => do
          let entry := Entry.ofPoints k old new
          Journal.note? entry.anomaly?
          let (entries, keys) ← compareEntries baseline points
          return (entry :: entries, keys)

/-- The comparison of a data set against a baseline. Its anomalies are logged as they are met and
belong to the report. -/
def compare (baseline new : DataSet) (thresholds : Thresholds) : Journal Report := do
  let ((entries, newPoints), diagnostics) ←
    (compareEntries baseline new.points).gather
  return {
    baselineDescription := baseline.description
    newDescription := new.description
    thresholds, entries, newPoints, diagnostics }

/-- The entries that became slower by a large change. -/
def slower (r : Report) : List Entry :=
  r.entries.filter (Entry.isSlower r.thresholds)

/-- The entries that became faster by a large change. -/
def faster (r : Report) : List Entry :=
  r.entries.filter (Entry.isFaster r.thresholds)

def changed (r : Report) : List Entry :=
  r.entries.filter (Entry.isChanged r.thresholds)

def toJson (r : Report) : Json :=
  .object
    [("baseline_description", .text r.baselineDescription),
      ("new_description", .text r.newDescription), ("thresholds", r.thresholds.toJson),
      ("entries", .array (r.entries.map Entry.toJson)),
      ("new_points", .array (r.newPoints.map Key.toJson)),
      ("diagnostics", .array (r.diagnostics.map Diagnostic.toJson))]

end Report

end BenchLog
