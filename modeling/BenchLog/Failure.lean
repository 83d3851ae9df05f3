import BenchLog.Disk

/-! Why a command fails.
A failure is told as a chain of texts, from what the command was about to do down to its cause.
-/

namespace BenchLog

/-- A failure of a command. -/
inductive Failure where
  /-- A log cannot be read line by line. -/
  | readLog (path : Path) (cause : FileError)
  /-- The log of a summary cannot be read. -/
  | readSummaryLog (path : Path) (cause : FileError)
  /-- A log cannot be read as a whole. -/
  | readWhole (path : Path) (cause : FileError)
  /-- A data set cannot be written as text. -/
  | writeSet (path : Path) (cause : FileError)
  /-- A data set cannot be written as JSON. -/
  | writeJson (path : Path) (cause : FileError)
  /-- A report cannot be written. -/
  | writeReport (path : Path) (cause : FileError)
  /-- Settings cannot be read. -/
  | readSettings (path : Path) (cause : FileError)
  /-- Settings are no valid text. -/
  | garbledSettings (path : Path)
  /-- Settings are not what they have to be. -/
  | invalidSettings (path : Path)
  deriving Repr, DecidableEq

namespace Failure

/-- The texts of a failure, the outermost first. -/
def chain : Failure → List String
  | .readLog path cause =>
      ["failed to read " ++ path.text ++ ": " ++ cause.message, cause.message]
  | .readSummaryLog path cause =>
      ["Failed to parse " ++ path.text, "failed to read " ++ path.text ++ ": " ++ cause.message,
        cause.message]
  | .readWhole path cause => ["Failed to read " ++ path.text, cause.message]
  | .writeSet path cause =>
      ["Failed to write " ++ path.text,
        "failed to write data set to " ++ path.text ++ ": " ++ cause.message, cause.message]
  | .writeJson path cause => ["Failed to write " ++ path.text, cause.message]
  | .writeReport path cause =>
      ["Failed to write " ++ path.text, "IO error: " ++ cause.message, cause.message]
  | .readSettings path cause =>
      ["Failed to read config file: " ++ path.text, cause.message]
  | .garbledSettings path =>
      ["Failed to read config file: " ++ path.text, "stream did not contain valid UTF-8"]
  | .invalidSettings path => ["Failed to parse config file: " ++ path.text]

/-- What the command was about to do. -/
def message (failure : Failure) : String :=
  failure.chain.headD ""

/-- The causes of a failure, each on a line of its own, numbered if there are several. -/
def causeLines : List String → List String
  | [] => []
  | [cause] => ["", "Caused by:", "    " ++ cause]
  | causes =>
      "" :: "Caused by:"
        :: causes.zipIdx.map fun (cause, n) => "    " ++ toString n ++ ": " ++ cause

def explanation (failure : Failure) : String :=
  String.join
    ((("Error: " ++ failure.message) :: causeLines failure.chain.tail).map fun line => line ++ "\n")

end Failure

end BenchLog
