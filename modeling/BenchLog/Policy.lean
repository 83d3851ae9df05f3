import BenchLog.Json
import BenchLog.Text.Blank
import BenchLog.Text.Case

/-! How repeated observations of one experiment are combined.
A policy is read from its name, whatever the case of its letters and the blanks around it.
-/

namespace BenchLog

/-- What becomes of two observations with the same key. -/
inductive Policy where
  /-- Times and counts are added and outputs joined. -/
  | sum
  /-- The observation with the smaller time is kept. -/
  | min
  /-- The observation with the larger time is kept. -/
  | max
  /-- The later observation is kept. -/
  | last
  /-- The earlier observation is kept and the later one reported. -/
  | warn
  deriving Repr, DecidableEq

/-- A name that belongs to no policy, in lower case and without blanks around it. -/
structure UnknownPolicy where
  name : String
  deriving Repr, DecidableEq

def UnknownPolicy.message (e : UnknownPolicy) : String :=
  "unknown merge policy '" ++ e.name ++ "' (expected sum, min, max, last or warn)"

namespace Policy

def all : List Policy := [.sum, .min, .max, .last, .warn]

def name : Policy → String
  | .sum => "sum"
  | .min => "min"
  | .max => "max"
  | .last => "last"
  | .warn => "warn"

def named? (name : String) : Option Policy :=
  all.find? fun policy => policy.name == name

/-- The policy that a text names, ignoring case and the blanks around it. -/
def ofText (text : String) : Except UnknownPolicy Policy :=
  let name := Text.lower (Text.trim text)
  match named? name with
  | some policy => .ok policy
  | none => .error ⟨name⟩

def toJson (policy : Policy) : Json :=
  .text policy.name

theorem named?_name (policy : Policy)
    : named? policy.name = some policy := by
  cases policy <;> decide

end Policy

end BenchLog
