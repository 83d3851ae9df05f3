import BenchLog.Decimal.Fixed
import BenchLog.Json

/-! The identity of an experiment: which benchmark ran on which input with how many processors.
Keys are ordered by benchmark, then input, then processors, and a label shows all three.
-/

namespace BenchLog

/-- What two observations of the same experiment share. -/
structure Key where
  benchmark : String
  inputParams : String
  processors : UInt32
  deriving Repr, DecidableEq

namespace Key

/-- The order in which the points of a data set are written. -/
def compare (a b : Key) : Ordering :=
  (Ord.compare a.benchmark b.benchmark).then
    ((Ord.compare a.inputParams b.inputParams).then (Ord.compare a.processors b.processors))

/-- The count of processors with at least two digits. -/
def processorsText (processors : UInt32) : String :=
  String.ofList (Decimal.paddedDigits 2 processors.toNat)

def label (k : Key) : String :=
  k.benchmark ++ ", " ++ k.inputParams ++ ", " ++ processorsText k.processors

def toJson (k : Key) : Json :=
  .object
    [("benchmark", .text k.benchmark), ("input_params", .text k.inputParams),
      ("processors", .natural k.processors.toNat)]

end Key

end BenchLog
