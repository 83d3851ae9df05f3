import BenchLog.Config.Writer
import BenchLog.FileTree
import BenchLog.Main
import BenchLog.Proofs.Decimal.ReadBack
import BenchLog.Proofs.Point.Shape
import BenchLog.Proofs.Point.Fields
import BenchLog.Proofs.Point.Built
import BenchLog.Proofs.Point.Recognition
import BenchLog.Proofs.Point.Separator
import BenchLog.Proofs.Point.RoundTrip
import BenchLog.Proofs.Point.Trailing
import BenchLog.Proofs.DataSet.Sound
import BenchLog.Proofs.DataSet.Built
import BenchLog.Proofs.Text.Lines
import BenchLog.Proofs.Log.Scan
import BenchLog.Proofs.Log.RoundTrip
import BenchLog.Proofs.Log.Collected
import BenchLog.Proofs.Log.ReadBack
import BenchLog.Proofs.Text.Decoding
import BenchLog.Proofs.DataSet.Matching
import BenchLog.Proofs.DataSet.Workspace
import BenchLog.Proofs.Decimal.Order
import BenchLog.Proofs.Decimal.Rounded
import BenchLog.Proofs.Decimal.Packing
import BenchLog.Proofs.Decimal.Arithmetic
import BenchLog.Proofs.Decimal.Quotient
import BenchLog.Proofs.Point.Association
import BenchLog.Proofs.DataSet.Concatenation
import BenchLog.Proofs.Report.Shared
import BenchLog.Proofs.DataSet.Union
import BenchLog.Proofs.DataSet.Folded
import BenchLog.Proofs.Point.TrimmedAverage
import BenchLog.Proofs.Report.Compared
import BenchLog.Proofs.Report.Accounted
import BenchLog.Proofs.Log.Grouped
import BenchLog.Proofs.Log.Positive
import BenchLog.Proofs.Log.Reported
import BenchLog.Proofs.Log.Filtered
import BenchLog.Proofs.DataSet.Whole
import BenchLog.Proofs.DataSet.Repetitions
import BenchLog.Proofs.Command
import BenchLog.Proofs.Log.Accounting
import BenchLog.Proofs.Log.Described
import BenchLog.Proofs.Decimal.Characters
import BenchLog.Proofs.Report.Rows
import BenchLog.Proofs.Report.Colours
import BenchLog.Proofs.Report.Layout
import BenchLog.Proofs.Report.Sections
import BenchLog.Proofs.Log.Logged
import BenchLog.Proofs.Command.Ensured
import BenchLog.Proofs.Command.Reported
import BenchLog.Proofs.FileTree
import BenchLog.Proofs.Command.Files
import BenchLog.Proofs.Decimal.Sign
import BenchLog.Proofs.Decimal.Magnitude
import BenchLog.Proofs.Decimal.Exact
import BenchLog.Proofs.Decimal.Vanishing
import BenchLog.Proofs.Decimal.Unpacked
import BenchLog.Proofs.Decimal.Significant
import BenchLog.Proofs.Decimal.General
import BenchLog.Proofs.Report.Direction
import BenchLog.Proofs.Report.Unchanged
import BenchLog.Proofs.Point.TrimmedMean
import BenchLog.Proofs.Report.Labels
import BenchLog.Proofs.Decimal.Stable
import BenchLog.Proofs.Path
