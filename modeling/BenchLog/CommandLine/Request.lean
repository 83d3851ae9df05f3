import BenchLog.CommandLine.Arguments

/-! What a command line asks for.
What is said on the command line takes precedence over the settings in a file.
-/

namespace BenchLog.CommandLine

/-- A command with its operands and settings. -/
inductive Action where
  | summarize (input : Path) (output : Option Path) (mode : Option Mode) (format : SummaryFormat)
  | diff (base : Path) (new output : Option Path) (largeThreshold reportThreshold : Option Float)
      (policy : Option Policy)
  deriving Repr

/-- What a command line asks for. -/
structure Request where
  action : Action
  configPath : Path
  noColour : Bool
  verbose : Bool
  deriving Repr

def policy? (text : String) : Option Policy :=
  (Policy.ofText text).toOption

def Action.ofArguments (scope : Scope) (args : Arguments) : Except UsageError Action :=
  let paths := args.operands.map Path.mk
  match scope, paths with
  | .summarize, input :: rest =>
      return .summarize input rest[0]? ((args.setting? .mode).bind Mode.named?)
        (((args.setting? .format).bind SummaryFormat.named?).getD .text)
  | .diff, base :: rest =>
      return .diff base rest[0]? rest[1]?
        ((args.setting? .largeThreshold).bind Decimal.readFloat?)
        ((args.setting? .reportThreshold).bind Decimal.readFloat?)
        ((args.setting? .mergePolicy).bind policy?)
  | .root, _ => throw .missingCommand
  | _, [] => throw .missingOperand

namespace Request

/-- What a command line asks for; arguments that may stand on both sides of the command count in
either place, the value after it first. -/
def ofTexts (texts : List String) : Except UsageError Request := do
  let (outer, scope, inner) ← takeCommand texts {}
  let action ← Action.ofArguments scope inner
  let config := (inner.setting? .config).or (outer.setting? .config)
  let given (switch : Switch) := inner.switches.contains switch || outer.switches.contains switch
  return {
    action
    configPath := (config.map Path.mk).getD Config.defaultPath
    noColour := given .noColour
    verbose := given .verbose }

/-- The settings with what a command says in their place. -/
def override (action : Action) (c : Config) : Config :=
  match action with
  | .summarize _ output mode _ =>
      { c with
        summary := { mode := mode.getD c.summary.mode, output := output.getD c.summary.output } }
  | .diff _ _ output large report policy =>
      { c with
        parse := { c.parse with policy := policy.getD c.parse.policy }
        diff :=
          { thresholds :=
              { large := large.getD c.diff.thresholds.large
                report := report.getD c.diff.thresholds.report }
            output := output.getD c.diff.output } }

/-- The settings with what a request says in their place. -/
def apply (r : Request) (c : Config) : Config :=
  let c := override r.action c
  if r.noColour then { c with report := { c.report with colours := false } } else c

end Request

end BenchLog.CommandLine
