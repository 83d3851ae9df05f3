import BenchLog.Path
import BenchLog.Policy

/-! How a summary reduces repeated observations of one experiment.
The mode decides how the log is merged and where the summary goes.
-/

namespace BenchLog

/-- What stands for the observations of one key in a summary. -/
inductive Mode where
  /-- Their mean. -/
  | avg
  /-- The fastest one. -/
  | min
  /-- The slowest one. -/
  | max
  deriving Repr, DecidableEq

namespace Mode

def all : List Mode := [.avg, .min, .max]

def name : Mode → String
  | .avg => "avg"
  | .min => "min"
  | .max => "max"

def named? (name : String) : Option Mode :=
  all.find? fun mode => mode.name == name

/-- The policy with which the log is read. -/
def policy : Mode → Policy
  | .avg => .sum
  | .min => .min
  | .max => .max

/-- The path of a summary: the name of the mode is put in front of the name of the file. -/
def path (mode : Mode) (p : Path) : Path :=
  p.withLeadingWord mode.name

end Mode

end BenchLog
