import BenchLog.Comparison
import BenchLog.Summary

/-! The vocabulary of the command line.
There are two commands with operands of their own, switches without a value and settings with one;
some of these belong to every command.
-/

namespace BenchLog.CommandLine

/-- Where on the command line an argument stands: before the command or after it. -/
inductive Scope where
  | root
  | summarize
  | diff
  deriving Repr, DecidableEq

/-- An argument that has no value. -/
inductive Switch where
  | noColour
  | verbose
  | help
  | version
  deriving Repr, DecidableEq

/-- An argument that has a value. -/
inductive Setting where
  | config
  | mode
  | format
  | largeThreshold
  | reportThreshold
  | mergePolicy
  deriving Repr, DecidableEq

/-- Why a command line is not carried out. -/
inductive UsageError where
  /-- The argument is not known here, or it is one operand too many. -/
  | unknownArgument
  /-- The value is missing, empty or none of those that are possible. -/
  | invalidValue
  /-- The value cannot be read as what it should be. -/
  | unreadableValue
  /-- An operand is missing. -/
  | missingOperand
  /-- The argument is given twice. -/
  | repeatedArgument
  /-- A switch has a value. -/
  | unexpectedValue
  /-- There is no command of that name. -/
  | unknownCommand
  /-- There are arguments but no command. -/
  | missingCommand
  /-- There are no arguments at all. -/
  | nothingGiven
  /-- Help is asked for. -/
  | helpAsked
  /-- The version is asked for. -/
  | versionAsked
  deriving Repr, DecidableEq

namespace Scope

def named? (name : String) : Option Scope :=
  if name = "summarize" then some .summarize
  else if name = "diff" then some .diff
  else none

def operandLimit : Scope → Nat
  | .root => 0
  | .summarize => 2
  | .diff => 3

def switches : Scope → List (String × Switch)
  | .root =>
      [("no-color", .noColour), ("verbose", .verbose), ("help", .help), ("version", .version)]
  | .summarize | .diff => [("no-color", .noColour), ("verbose", .verbose), ("help", .help)]

def letters : Scope → List (Char × Switch)
  | .root => [('v', .verbose), ('h', .help), ('V', .version)]
  | .summarize | .diff => [('v', .verbose), ('h', .help)]

def settings : Scope → List (String × Setting)
  | .root => [("config", .config)]
  | .summarize => [("config", .config), ("mode", .mode), ("format", .format)]
  | .diff =>
      [("config", .config), ("large-threshold", .largeThreshold),
        ("report-threshold", .reportThreshold), ("merge-policy", .mergePolicy)]

end Scope

/-- What is wrong with a path, which must not be empty. -/
def checkPath (value : String) : Except UsageError Unit :=
  if value = "" then throw .invalidValue else return ()

/-- What is wrong with a value of a setting. -/
def Setting.check (value : String) : Setting → Except UsageError Unit
  | .config => checkPath value
  | .mode => if (Mode.named? value).isSome then return () else throw .invalidValue
  | .format => if (SummaryFormat.named? value).isSome then return () else throw .invalidValue
  | .largeThreshold | .reportThreshold =>
      if (Decimal.readFloat? value).isSome then return () else throw .unreadableValue
  | .mergePolicy =>
      match Policy.ofText value with
      | .ok _ => return ()
      | .error _ => throw .unreadableValue

/-- An argument by the way it is written. -/
inductive Word where
  /-- The mark after which all arguments are operands. -/
  | mark
  /-- A name after two dashes, perhaps with a value after an equals sign. -/
  | long (name : String) (value : Option String)
  /-- Letters after one dash. -/
  | cluster (letters : List Char)
  /-- Anything else. -/
  | plain (text : String)
  deriving Repr, DecidableEq

def Word.ofText (text : String) : Word :=
  match text.toList with
  | ['-', '-'] => .mark
  | '-' :: '-' :: rest =>
      let name := String.ofList (rest.takeWhile (· != '='))
      match rest.dropWhile (· != '=') with
      | [] => .long name none
      | _ :: value => .long name (some (String.ofList value))
  | '-' :: c :: rest => .cluster (c :: rest)
  | _ => .plain text

end BenchLog.CommandLine
