import BenchLog.CommandLine.Request
import BenchLog.Config.Reader
import BenchLog.Report.Screen

/-! Carrying out a command line.
The outcome is what the program prints and the code with which it ends: zero if all went well, one
if the command failed and two if the command line could not be understood.
-/

namespace BenchLog.CommandLine

/-- What the program prints and how it ends. -/
structure Outcome where
  code : UInt32
  output : String
  errors : String
  /-- The log, from which the caller picks what to show. -/
  events : List Event := []
  /-- Whether all of the log is asked for. -/
  verbose : Bool := false

def versionText : String := "perfdata 0.1.0"

def helpText : String :=
  String.join
    ([ "Summarize and diff benchmark data points from run logs", "",
        "Usage: perfdata [OPTIONS] <COMMAND>", "", "Commands:",
        "  summarize  Merge all data points with the same key in one log",
        "  diff       Compare the data points of two logs",
        "  help       Print this message or the help of the given subcommand(s)", "", "Options:",
        "      --config <CONFIG>  Path to config file [default: .perfdata.toml]",
        "      --no-color         Disable colored terminal output",
        "  -v, --verbose          Verbose output", "  -h, --help             Print help",
        "  -V, --version          Print version" ].map fun line => line ++ "\n")

def UsageError.message : UsageError → String
  | .unknownArgument => "unexpected argument found"
  | .invalidValue => "a value is missing or not possible"
  | .unreadableValue => "a value cannot be read"
  | .missingOperand => "a required argument was not provided"
  | .repeatedArgument => "an argument cannot be used multiple times"
  | .unexpectedValue => "a value was given for an argument that takes none"
  | .unknownCommand => "unrecognized subcommand"
  | .missingCommand => "a subcommand is required but one was not provided"
  | .nothingGiven | .helpAsked => helpText
  | .versionAsked => versionText

/-- The outcome of a command line that asks for no command. -/
def UsageError.outcome (e : UsageError) : Outcome :=
  match e with
  | .helpAsked => { code := 0, output := helpText, errors := "" }
  | .versionAsked => { code := 0, output := versionText ++ "\n", errors := "" }
  | .nothingGiven => { code := 2, output := "", errors := helpText }
  | e => { code := 2, output := "", errors := "error: " ++ e.message ++ "\n" }

def failed (failure : Failure) : Outcome :=
  { code := 1, output := "", errors := failure.explanation }

/-- The log of a list of anomalies that a command returns. -/
def anomalyEvents (diagnostics : List Diagnostic) : List Event :=
  if diagnostics.isEmpty then [] else [.sawAnomalies diagnostics.length]

variable {m : Type → Type} [Monad m] [Disk m]

/-- Carries out a command with all settings known; `terminal` tells whether colours can be shown. -/
def runAction (terminal : Bool) (c : Config) : Action → m Outcome
  | .summarize input _ _ format => do
      let (result, events) ←
        Command.outcome (summarize input c.summary.output c.summary.mode format c.parse)
      match result with
      | .error failure => return { failed failure with events }
      | .ok summary =>
          return {
            code := 0
            output := ""
            errors :=
              "Wrote " ++ toString summary.set.size ++ " data points to " ++ summary.path.text ++ "\n"
            events := events ++ anomalyEvents summary.diagnostics }
  | .diff base new _ _ _ _ => do
      let (result, events) ←
        Command.outcome (diff base new c.diff.output c.diff.thresholds c.parse)
      match result with
      | .error failure => return { failed failure with events }
      | .ok comparison =>
          return {
            code := 0
            output := comparison.report.terminal (terminal && c.report.colours)
            errors := "Wrote diff report to " ++ c.diff.output.text ++ "\n"
            events :=
              events ++ anomalyEvents comparison.diagnostics
                ++ anomalyEvents comparison.report.diagnostics }

/-- Carries out a command line. -/
def run (terminal : Bool) (texts : List String) : m Outcome := do
  match Request.ofTexts texts with
  | .error e => return e.outcome
  | .ok request =>
      match ← Config.loadIfExists request.configPath with
      | .error failure => return failed failure
      | .ok config =>
          let outcome ← runAction terminal (request.apply config) request.action
          return { outcome with verbose := request.verbose }

end BenchLog.CommandLine
