import BenchLog.Decimal.Read
import BenchLog.Decimal.Shortest
import BenchLog.Diagnostic
import BenchLog.Point
import BenchLog.Point.Ending

/-! The line that stands for a point in a log.
It has six fields between commas: a tag, the time, the processors, the benchmark and, in brackets,
the input and the output. The first four end at their comma; the input reaches as far as a line
can still be completed after it, and so does the output, so that brackets may occur in both.
-/

namespace BenchLog

/-- The tag that opens every line of a point. -/
def pointTag : String := "CILKPUB_DATA_POINT"

/-- The six fields of a line as they stand in it. -/
structure PointLine where
  tag : List Char
  time : List Char
  processors : List Char
  benchmark : List Char
  input : List Char
  output : List Char
  deriving Repr, DecidableEq

namespace PointLine

/-- The text before the first comma, which must not be empty, and what follows the comma. -/
def field? (cs : List Char) : Option (List Char × List Char) :=
  match cs.takeWhile (· != ','), cs.dropWhile (· != ',') with
  | c :: text, _ :: rest => some (c :: text, rest)
  | _, _ => none

/-- The six fields of a text that has the shape of a point. -/
def ofChars? (cs : List Char) : Option PointLine := do
  let (tag, rest) ← field? cs
  let (time, rest) ← field? rest
  let (processors, rest) ← field? rest
  let (benchmark, rest) ← field? rest
  let rest ← openBracket? rest
  let (input, output) ← (Ending.ofChars rest).fields
  return { tag, time, processors, benchmark, input, output }

end PointLine

/-- What a line turns out to be when it is read as a point. -/
inductive Recognition where
  /-- The line has another shape. -/
  | unrelated
  /-- The line has the shape of a point but stands for none. -/
  | rejected (d : Diagnostic)
  /-- The line stands for a point. -/
  | accepted (p : Point)
  deriving Repr

namespace Recognition

def point? : Recognition → Option Point
  | .accepted p => some p
  | _ => none

/-- What was wrong with a line that has the shape of a point. -/
def anomaly? : Recognition → Option Diagnostic
  | .rejected d => some d
  | _ => none

/-- The point for which the fields of a line stand; the tag is looked at first, then the time. -/
def ofFields (line : String) (fields : PointLine) : Recognition :=
  if Text.trimChars fields.tag ≠ pointTag.toList then .rejected (.tagMismatch line)
  else
    let time := Text.trimChars fields.time
    let processors := Text.trimChars fields.processors
    match Decimal.readFloatChars? time, Decimal.readWordChars? processors with
    | none, _ => .rejected (.malformedField line .time (String.ofList time))
    | some _, none => .rejected (.malformedField line .processors (String.ofList processors))
    | some time, some processors =>
        .accepted
          (.single (String.ofList fields.benchmark) processors time (String.ofList fields.input)
            (String.ofList fields.output))

/-- What a line is when read as a point, which may lack the name of its benchmark. -/
def ofLine (line : String) : Recognition :=
  match PointLine.ofChars? line.toList with
  | none => .unrelated
  | some fields => .ofFields line fields

/-- A point without benchmark is rejected. -/
def requireBenchmark : Recognition → Recognition
  | .accepted p => if p.isValid then .accepted p else .rejected (.invalidPoint p.describe)
  | other => other

/-- What a line is when read as a point that names its benchmark. -/
def ofNamedLine (line : String) : Recognition :=
  (ofLine line).requireBenchmark

end Recognition

/-- Times are written without an exponent part, whatever their size. -/
def timeLayout : Decimal.Layout where
  tie := .away
  plain := fun _ => true
  zeroFraction := false
  nan := ['N', 'a', 'N']

/-- A time with six places if it reads back from them, else in the fewest digits. -/
def timeText (time : Float) : String :=
  let text := Decimal.fixed 6 time
  match Decimal.readFloat? text with
  | some read => if read == time then text else timeLayout.text time
  | none => timeLayout.text time

/-- The line that stands for a point; the extremes and the count are not part of it. -/
def Point.line (p : Point) : String :=
  pointTag ++ ", " ++ timeText p.time ++ ", " ++ toString p.processors.toNat ++ ", " ++ p.benchmark
    ++ ", [" ++ p.inputParams ++ "], [" ++ p.outputData ++ "]"

end BenchLog
