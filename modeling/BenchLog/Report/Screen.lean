import BenchLog.Decimal.General
import BenchLog.Report
import BenchLog.Report.Style

/-! The report of a comparison as shown on a terminal.
It lists the changed entries under a row of column names and ends with a summary. With colours the
slower entries are red and the faster ones green; without them the text is the same.
-/

namespace BenchLog.Report

/-- A part of a row, shown in a style if there is one. -/
structure Span where
  style : Option Style
  text : String
  deriving Repr, DecidableEq

def Span.plain (text : String) : Span :=
  ⟨none, text⟩

def Span.bold (text : String) : Span :=
  ⟨some ⟨true, none⟩, text⟩

def Span.coloured (colour : Colour) (text : String) : Span :=
  ⟨some ⟨false, some colour⟩, text⟩

def Span.render (colours : Bool) (s : Span) : String :=
  match s.style with
  | some style => if colours then style.paint s.text else s.text
  | none => s.text

def changeText (e : Entry) : String :=
  if e.suspicious then "suspicious"
  else if e.percentDiff > 0 then "+" ++ Decimal.fixed 2 e.percentDiff ++ "%"
  else if e.percentDiff < 0 then "-" ++ Decimal.fixed 2 e.percentDiff.abs ++ "%"
  else "0.00%"

/-- The style of the change of an entry: large ones are bold and coloured by direction. -/
def changeStyle (t : Thresholds) (e : Entry) : Style :=
  if e.suspicious then ⟨true, some .yellow⟩
  else if e.percentDiff ≥ t.large then ⟨true, some .red⟩
  else if e.percentDiff ≤ -t.large then ⟨true, some .green⟩
  else ⟨false, some .yellow⟩

/-- A label of more than thirty-eight characters is cut to thirty-five and three points. -/
def shortLabel (label : String) : String :=
  if label.length > 38 then String.ofList (label.toList.take 35) ++ "..." else label

def ruler : String :=
  String.ofList (List.replicate 83 '-')

def terminalHeader (r : Report) : List Span :=
  [.bold
    (Text.alignLeft 40 "Benchmark" ++ " " ++ Text.alignRight 14 r.baselineDescription ++ " "
      ++ Text.alignRight 14 r.newDescription ++ " " ++ Text.alignRight 12 "Change")]

/-- The row of an entry; the change is moved to the right by the width of its bare text. -/
def terminalRow (t : Thresholds) (e : Entry) : List Span :=
  [.plain
    (Text.alignLeft 40 (shortLabel e.label) ++ " "
      ++ Text.alignRight 14 (Decimal.general e.baselineTime) ++ " "
      ++ Text.alignRight 14 (Decimal.general e.newTime) ++ " "
      ++ Text.filling 12 (changeText e)),
    ⟨some (changeStyle t e), changeText e⟩]

def summaryRow (r : Report) : List Span :=
  [.bold "Summary:", .plain " ",
    .coloured .red (toString r.slower.length ++ " slower"), .plain ", ",
    .coloured .green (toString r.faster.length ++ " faster"), .plain ", ",
    .coloured .yellow (toString r.changed.length ++ " changed"),
    .plain
      (" of " ++ toString r.entries.length ++ " compared, " ++ toString r.newPoints.length
        ++ " new")]

def terminalRows (r : Report) : List (List Span) :=
  [[], r.terminalHeader, [.plain ruler]] ++ r.changed.map (terminalRow r.thresholds)
    ++ [[], [.plain ruler], r.summaryRow, []]

/-- A row as it is sent to the terminal, without its line feed. -/
def renderRow (colours : Bool) (row : List Span) : String :=
  String.join (row.map (Span.render colours))

/-- The report as it is sent to the terminal, with colours or without. -/
def terminal (colours : Bool) (r : Report) : String :=
  String.join (r.terminalRows.map fun row => renderRow colours row ++ "\n")

end BenchLog.Report
