import BenchLog.Command
import BenchLog.Log.Groups
import BenchLog.Report.Sections

/-! Comparing two logs, or a log with itself.
Both logs are read before anything is written, and the only file that is written is the report.
-/

namespace BenchLog

/-- The comparison of two logs; the report has anomalies of its own. -/
structure Comparison where
  baseline : DataSet
  new : DataSet
  report : Report
  diagnostics : List Diagnostic

variable {m : Type → Type} [Monad m] [Disk m]

/-- Reads the log in a file through every group of patterns. -/
def loadFiltered (settings : ParseSettings) (path : Path)
    : Command m (DataSet × List Diagnostic) :=
  Command.load (.readWhole path) path
    (fun bytes => Log.readGroups settings path (Text.textOfBytes bytes)) fun set =>
      .loadedSet path.text set.size

namespace Comparison

/-- The count of points of the baseline that the newer set lacks. -/
def droppedCount (baseline new : DataSet) : Nat :=
  (baseline.keys.filter fun key => (new.get? key).isNone).length

/-- The data set that is compared with the baseline: that of another log, or the baseline again. -/
def loadNew (settings : ParseSettings) (baseline : DataSet)
    : Option Path → Command m (DataSet × List Diagnostic)
  | some path => loadFiltered settings path
  | none => return (baseline, [])

/-- Compares two data sets, which were read with the anomalies given, and writes the report. -/
def write (baseline new : DataSet) (diagnostics : List Diagnostic) (output : Path)
    (thresholds : Thresholds)
    : Command m Comparison := do
  let (report, _) ← Command.journal (Report.compare baseline new thresholds)
  let dropped := droppedCount baseline new
  if 0 < dropped then Command.log [.droppedPoints dropped]
  Command.access (.writeReport output) (Disk.write output (Text.bytesOfText report.text))
  Command.log [.wroteReport output.text report.entries.length]
  return { baseline, new, report, diagnostics }

end Comparison

/-- Compares a log against a baseline, or the baseline with itself, and writes the report. -/
def diff (base : Path) (new? : Option Path) (output : Path) (thresholds : Thresholds)
    (settings : ParseSettings)
    : Command m Comparison := do
  let (baseline, baselineDiagnostics) ← loadFiltered settings base
  let (new, newDiagnostics) ← Comparison.loadNew settings baseline new?
  Comparison.write baseline new (baselineDiagnostics ++ newDiagnostics) output thresholds

end BenchLog
