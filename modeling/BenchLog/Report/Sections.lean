import BenchLog.Decimal.General
import BenchLog.Report
import BenchLog.Text.Columns

/-! The report of a comparison as a text file.
Four sections list the slower, the faster, the changed and all entries, each under a title and a
row of column names.
-/

namespace BenchLog.Report

def columnNames (r : Report) : String :=
  "# " ++ Text.alignRight 20 "Benchmark " ++ " " ++ Text.alignRight 15 r.baselineDescription ++ " "
    ++ Text.alignRight 15 r.newDescription ++ " " ++ Text.alignRight 8 "Percent Diff"

def textRow (e : Entry) : String :=
  Text.alignRight 40 e.label ++ ", " ++ Text.alignRight 8 (Decimal.general e.baselineTime) ++ ", "
    ++ Text.alignRight 8 (Decimal.general e.newTime) ++ ", "
    ++ Text.alignRight 8 (Decimal.general e.percentDiff)

def slowerTitle (r : Report) : String :=
  "#               [Test with change >= " ++ Decimal.fixed 6 r.thresholds.large ++ " percent]"

def fasterTitle (r : Report) : String :=
  "#               [Test with change <= -" ++ Decimal.fixed 6 r.thresholds.large ++ " percent]"

def changedTitle (r : Report) : String :=
  "# Any diff >= " ++ Decimal.fixed 6 r.thresholds.report ++ " percent "

def allTitle : String := "# All data "

/-- A section of the text: its heading and a row for each of its entries. -/
def sectionLines (heading : List String) (entries : List Entry) : List String :=
  heading ++ entries.map textRow

/-- The lines of the report, of which a section ends with empty ones. -/
def textLines (r : Report) : List String :=
  sectionLines [r.slowerTitle, "", r.columnNames] r.slower ++ ["", ""]
    ++ sectionLines [r.fasterTitle, "", r.columnNames] r.faster ++ ["", ""]
    ++ sectionLines [r.changedTitle, "", r.columnNames] r.changed ++ ["", ""]
    ++ sectionLines [allTitle, r.columnNames] r.entries ++ [""]

/-- The report as a text, every line ended by a line feed. -/
def text (r : Report) : String :=
  String.join (r.textLines.map fun line => line ++ "\n")

end BenchLog.Report
