import BenchLog.Disk
import BenchLog.Log
import BenchLog.Mode
import BenchLog.Report

/-! The settings of the commands.
Each part has the values that apply when nothing is configured.
-/

namespace BenchLog

/-- How logs are read. -/
structure ParseSettings where
  /-- What becomes of points with the same key in one pass over a log. -/
  policy : Policy := .sum
  /-- The labels that describe a run. -/
  labels : List String := Log.defaultLabels
  /-- The groups of patterns. Each group is a pass over the log, and the passes are summed. -/
  filters : List (List String) := [[pointTag]]
  deriving Repr, BEq

/-- How runs are compared. -/
structure DiffSettings where
  thresholds : Thresholds := .standard
  /-- Where the report goes. -/
  output : Path := ⟨"perf_diff_output.txt"⟩
  deriving Repr, BEq

/-- How a run is summarized. -/
structure SummarySettings where
  mode : Mode := .avg
  /-- Where the summary goes, but for the mode in front of its name. -/
  output : Path := ⟨"tmp_summary_output.dat"⟩
  deriving Repr, BEq

/-- How results are shown. -/
structure ReportSettings where
  colours : Bool := true
  deriving Repr, BEq

/-- All settings. -/
structure Config where
  parse : ParseSettings := {}
  diff : DiffSettings := {}
  summary : SummarySettings := {}
  report : ReportSettings := {}
  deriving Repr, BEq

def Config.defaultPath : Path := ⟨".perfdata.toml"⟩

end BenchLog
