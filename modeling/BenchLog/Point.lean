import BenchLog.Key
import BenchLog.Text.Blank

/-! Measurements of one experiment, single or aggregated.
A point with count one holds a single time; a summed point holds the total of its observations
and beside it the least and the greatest time seen.
-/

namespace BenchLog

/-- One measurement or the aggregate of several with the same key. -/
structure Point where
  benchmark : String
  processors : UInt32
  time : Float
  inputParams : String
  outputData : String
  count : Nat
  minTime : Float
  maxTime : Float
  deriving Repr, BEq

namespace Point

/-- A point that stands for `count` observations, its texts without the blanks around them. -/
def ofCount (benchmark : String) (processors : UInt32) (time : Float)
    (inputParams outputData : String) (count : Nat)
    : Point where
  benchmark := Text.trim benchmark
  processors := processors
  time := time
  inputParams := Text.trim inputParams
  outputData := Text.trim outputData
  count := count
  minTime := time
  maxTime := time

def single (benchmark : String) (processors : UInt32) (time : Float)
    (inputParams outputData : String)
    : Point :=
  ofCount benchmark processors time inputParams outputData 1

/-- The identity of the experiment that was measured. -/
def key (p : Point) : Key :=
  ⟨p.benchmark, p.inputParams, p.processors⟩

def keyText (p : Point) : String :=
  p.key.label

/-- A point that names its benchmark. -/
def isValid (p : Point) : Bool :=
  p.benchmark != ""

/-- The mean over the observations without the smallest and the largest one.
Of two observations this is the smaller, since only their total and the extremes are known. -/
def trimmedAverage (p : Point) : Float :=
  match p.count with
  | 0 | 1 => p.time
  | 2 => p.time - p.maxTime
  | n + 3 => (p.time - (p.minTime + p.maxTime)) / Float.ofNat (n + 1)

/-- The mean over all observations as one observation; the extremes stay. -/
def averaged (p : Point) : Point :=
  if 0 < p.count then { p with time := p.time / Float.ofNat p.count, count := 1 } else p

/-- The mean without the extremes as one observation. -/
def trimmed (p : Point) : Point :=
  if 0 < p.count then
    { p with
      time := p.trimmedAverage, minTime := p.trimmedAverage, maxTime := p.trimmedAverage,
      count := 1 }
  else p

/-- All of a point but its extremes in one row. -/
def describe (p : Point) : String :=
  p.benchmark ++ ", " ++ toString p.processors.toNat ++ ", " ++ Decimal.fixed 6 p.time ++ ", "
    ++ p.inputParams ++ ", " ++ p.outputData ++ ", " ++ toString p.count

def toJson (p : Point) : Json :=
  .object
    [("benchmark", .text p.benchmark), ("processors", .natural p.processors.toNat),
      ("time", .number p.time), ("input_params", .text p.inputParams),
      ("output_data", .text p.outputData), ("count", .natural p.count),
      ("min_time", .number p.minTime), ("max_time", .number p.maxTime)]

@[simp]
theorem key_averaged (p : Point)
    : p.averaged.key = p.key := by
  unfold averaged
  split <;> rfl

@[simp]
theorem key_trimmed (p : Point)
    : p.trimmed.key = p.key := by
  unfold trimmed
  split <;> rfl

end Point

end BenchLog
