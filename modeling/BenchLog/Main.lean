import BenchLog.CommandLine.Run

/-! The program: the command line on the files of the disk.
Errors of the system are told in the words of the library, and the log goes to the standard error.
-/

namespace BenchLog

/-- The number of a system error, which some accesses give with its sign changed. -/
def errorNumber (code : UInt32) : UInt32 :=
  if code < 0x80000000 then code else 0 - code

/-- The failure of an access in the words of the library. -/
def FileError.ofSystem (e : IO.Error) : FileError :=
  match e with
  | .noFileOrDirectory .. => .notFound
  | .inappropriateType _ code _ =>
      if errorNumber code = 20 then .notDirectory else .isDirectory
  | .invalidArgument _ code _ =>
      match errorNumber code with
      | 22 => .zeroInPath
      | 36 => .nameTooLong
      | _ => .other (toString e)
  | _ => .other (toString e)

def accessDisk {α : Type} (x : IO α) : IO (Except FileError α) := do
  match ← x.toBaseIO with
  | .ok a => return .ok a
  | .error e => return .error (.ofSystem e)

instance : Disk IO where
  read p := accessDisk do return (← IO.FS.readBinFile p.text).toList
  write p bytes := accessDisk (IO.FS.writeBinFile p.text ⟨bytes.toArray⟩)
  exists? p := do
    match ← (IO.FS.realPath p.text).toBaseIO with
    | .ok _ => return true
    | .error _ => return false

/-- Whether colours can be shown: on a terminal, unless the environment asks for something else. -/
def showsColours : IO Bool := do
  match ← IO.getEnv "CLICOLOR_FORCE" with
  | some value => if value ≠ "0" then return true
  | none => pure ()
  if (← IO.getEnv "NO_COLOR").isSome then return false
  if (← IO.getEnv "CLICOLOR") = some "0" then return false
  (← IO.getStdout).isTty

/-- The events that are shown: all if asked for, else without those for debugging. -/
def shownEvents (verbose : Bool) (events : List Event) : List Event :=
  events.filter fun e => verbose || e.level != .debug

/-- Carries out a command line and prints its outcome. -/
def runProgram (texts : List String) : IO UInt32 := do
  let outcome ← CommandLine.run (← showsColours) texts
  for e in shownEvents outcome.verbose outcome.events do
    IO.eprintln e.row
  IO.print outcome.output
  IO.eprint outcome.errors
  return outcome.code

end BenchLog

/-- The program, given the arguments of the command line. -/
def main (texts : List String) : IO UInt32 :=
  BenchLog.runProgram texts
