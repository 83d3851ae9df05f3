import BenchLog.Journal
import BenchLog.Point

/-! Combining two points of the same key.
The extremes are widened under every policy; what becomes of the time, the output and the count is
for the policy to say. Points of different keys are left alone and reported.
-/

namespace BenchLog.Point

/-- The extremes of two points together. -/
def widen (p q : Point) : Point :=
  { p with
    minTime := if q.minTime < p.minTime then q.minTime else p.minTime
    maxTime := if q.maxTime > p.maxTime then q.maxTime else p.maxTime }

/-- The observation of another point, the key and the extremes being kept. -/
def observe (p q : Point) : Point :=
  { p with time := q.time, outputData := q.outputData, count := q.count }

/-- Two outputs in one text, with a separator if neither is empty. -/
def joinOutputs (a b : String) : String :=
  if a ≠ "" ∧ b ≠ "" then a ++ ", " ++ b else a ++ b

def total (p q : Point) : Point :=
  { p with
    time := p.time + q.time
    outputData := joinOutputs p.outputData q.outputData
    count := p.count + q.count }

/-- What a policy makes of a point when another of its key follows. -/
def absorb (policy : Policy) (p q : Point) : Point :=
  let wide := p.widen q
  match policy with
  | .sum => wide.total q
  | .min => if q.time < p.time then wide.observe q else wide
  | .max => if q.time > p.time then wide.observe q else wide
  | .last => wide.observe q
  | .warn => wide

def duplicate (p q : Point) : Diagnostic :=
  .duplicatePoint p.keyText p.describe q.describe

def merge (policy : Policy) (p q : Point) : Journal Point :=
  if p.key = q.key then do
    if policy = .warn then Journal.note (p.duplicate q)
    return p.absorb policy q
  else do
    Journal.note (.keyMismatch p.keyText q.keyText)
    return p

@[simp]
theorem key_absorb (policy : Policy) (p q : Point)
    : (p.absorb policy q).key = p.key := by
  cases policy <;> simp only [absorb] <;> first | rfl | (split <;> rfl)

/-- Points of one key merge into what the policy makes of them. -/
theorem value_merge {policy : Policy} {p q : Point} (h : p.key = q.key)
    : (merge policy p q).value = p.absorb policy q := by
  unfold merge
  rw [if_pos h]
  split <;> rfl

/-- Points of one key are reported under the warning policy only. -/
theorem diagnostics_merge {policy : Policy} {p q : Point} (h : p.key = q.key)
    : (merge policy p q).diagnostics = if policy = .warn then [p.duplicate q] else [] := by
  unfold merge
  rw [if_pos h]
  split <;> rfl

end BenchLog.Point
