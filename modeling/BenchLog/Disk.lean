import BenchLog.Path

/-! The files that a command reads and writes.
A command is written for any monad with these three operations, so that it runs on the disk and on
a tree of files in memory alike.
-/

namespace BenchLog

/-- Why a file cannot be read or written. -/
inductive FileError where
  | notFound
  | notDirectory
  | isDirectory
  | nameTooLong
  /-- The path holds the character of code zero. -/
  | zeroInPath
  /-- Anything else, in the words of the system. -/
  | other (text : String)
  deriving Repr, DecidableEq

def FileError.message : FileError → String
  | .notFound => "No such file or directory (os error 2)"
  | .notDirectory => "Not a directory (os error 20)"
  | .isDirectory => "Is a directory (os error 21)"
  | .nameTooLong => "File name too long (os error 36)"
  | .zeroInPath => "file name contained an unexpected NUL byte"
  | .other text => text

/-- Access to files. -/
class Disk (m : Type → Type) where
  /-- The content of a file. -/
  read : Path → m (Except FileError (List UInt8))
  /-- Replaces or creates a file. -/
  write : Path → List UInt8 → m (Except FileError Unit)
  /-- Whether a path leads to a file or a directory. -/
  exists? : Path → m Bool

end BenchLog
