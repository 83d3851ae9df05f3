import BenchLog.Failure
import BenchLog.Journal

/-! Commands, which may fail and keep a log.
The log is kept also when a command fails, and it has the events of every journal that the command
takes in.
-/

namespace BenchLog

/-- A command that yields a result or a failure, and logs. -/
abbrev Command (m : Type → Type) (α : Type) : Type :=
  ExceptT Failure (StateT (List Event) m) α

namespace Command

variable {m : Type → Type} [Monad m]

def outcome {α : Type} (command : Command m α) : m (Except Failure α × List Event) :=
  StateT.run (ExceptT.run command) []

def log (events : List Event) : Command m Unit :=
  modify fun earlier => earlier ++ events

/-- A computation with a journal: its log goes into the command's and its anomalies are returned. -/
def journal {α : Type} (x : Journal α) : Command m (α × List Diagnostic) := do
  log x.events
  return (x.value, x.diagnostics)

/-- An access to a file, which fails in the way that is given for it. -/
def access {α : Type} (failure : FileError → Failure) (x : m (Except FileError α))
    : Command m α := do
  match ← (x : StateT (List Event) m (Except FileError α)) with
  | .ok a => return a
  | .error e => throw (failure e)

/-- What is read from the bytes of a file, with the anomalies met in it; an event tells that it was
read. -/
def load {α : Type} [Disk m] (failure : FileError → Failure) (path : Path)
    (read : List UInt8 → Journal α) (done : α → Event)
    : Command m (α × List Diagnostic) := do
  let bytes ← access failure (Disk.read path)
  let (a, diagnostics) ← journal (read bytes)
  log [done a]
  return (a, diagnostics)

end Command

end BenchLog
