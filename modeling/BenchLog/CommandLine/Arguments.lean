import BenchLog.CommandLine.Usage

/-! Taking in the arguments of a command line one by one.
A value or an operand is looked at only when the next argument has been recognised or none is left,
so that an argument that is not known is reported before a bad value in front of it.
-/

namespace BenchLog.CommandLine

/-- An argument that has been taken but not looked at. -/
inductive Pending where
  /-- A setting that has got no value so far. -/
  | awaiting (setting : Setting)
  /-- A setting with a value. -/
  | valued (setting : Setting) (value : String)
  /-- An operand. -/
  | operand (value : String)
  deriving Repr, DecidableEq

/-- The arguments of one scope. -/
structure Arguments where
  switches : List Switch := []
  settings : List (Setting × String) := []
  operands : List String := []
  pending : Option Pending := none
  /-- All further arguments are operands. -/
  closed : Bool := false
  deriving Repr, DecidableEq

namespace Arguments

def setting? (args : Arguments) (setting : Setting) : Option String :=
  (args.settings.find? (·.1 == setting)).map (·.2)

/-- The arguments with a setting, which may be given once. -/
def addSetting (args : Arguments) (setting : Setting) (value : String)
    : Except UsageError Arguments := do
  if (args.setting? setting).isSome then throw .repeatedArgument
  setting.check value
  return { args with settings := args.settings ++ [(setting, value)] }

/-- The arguments with a switch, which may be given once; asking for help ends it all. -/
def addSwitch (args : Arguments) : Switch → Except UsageError Arguments
  | .help => throw .helpAsked
  | .version => throw .versionAsked
  | switch =>
      if args.switches.contains switch then throw .repeatedArgument
      else return { args with switches := args.switches ++ [switch] }

/-- The arguments after what was pending has been looked at. -/
def settle (args : Arguments) : Except UsageError Arguments :=
  let rest := { args with pending := none }
  match args.pending with
  | none => return rest
  | some (.awaiting _) => throw .invalidValue
  | some (.valued setting value) => rest.addSetting setting value
  | some (.operand value) => do
      checkPath value
      return { rest with operands := rest.operands ++ [value] }

/-- The count of operands, with one that is pending. -/
def operandCount (args : Arguments) : Nat :=
  match args.pending with
  | some (.operand _) => args.operands.length + 1
  | _ => args.operands.length

def addOperand (scope : Scope) (args : Arguments) (value : String)
    : Except UsageError Arguments := do
  if scope.operandLimit ≤ args.operandCount then throw .unknownArgument
  let args ← args.settle
  return { args with pending := some (.operand value) }

/-- The arguments with the switches of a cluster of letters. -/
def addCluster (scope : Scope) : List Char → Arguments → Except UsageError Arguments
  | [], args => return args
  | c :: letters, args =>
      match scope.letters.lookup c with
      | none => throw .unknownArgument
      | some switch => do
          let args ← args.settle
          let args ← args.addSwitch switch
          args.addCluster scope letters

def addLong (scope : Scope) (name : String) (value : Option String) (args : Arguments)
    : Except UsageError Arguments :=
  match scope.switches.lookup name, scope.settings.lookup name, value with
  | some _, _, some _ => throw .unexpectedValue
  | some switch, _, none => do
      let args ← args.settle
      args.addSwitch switch
  | none, some setting, some value => do
      let args ← args.settle
      args.addSetting setting value
  | none, some setting, none => do
      let args ← args.settle
      return { args with pending := some (.awaiting setting) }
  | none, none, _ => throw .unknownArgument

/-- Something has been said. -/
def isExplicit (args : Arguments) : Bool :=
  !args.switches.isEmpty || !args.settings.isEmpty

end Arguments

def takeAll (scope : Scope) : List String → Arguments → Except UsageError Arguments
  | [], args => args.settle
  | text :: texts, args => do
      if args.closed then
        takeAll scope texts (← args.addOperand scope text)
      else
        match Word.ofText text, args.pending with
        | .mark, _ => takeAll scope texts { args with closed := true }
        | .long name value, _ => takeAll scope texts (← args.addLong scope name value)
        | .cluster letters, _ => takeAll scope texts (← args.addCluster scope letters)
        | .plain text, some (.awaiting setting) =>
            takeAll scope texts { args with pending := some (.valued setting text) }
        | .plain text, _ => takeAll scope texts (← args.addOperand scope text)

/-- What the command that explains another does with its operands. -/
def explain : List String → UsageError
  | [] => .helpAsked
  | [name] => if name = "help" ∨ (Scope.named? name).isSome then .helpAsked else .unknownCommand
  | _ => .unknownCommand

/-- The arguments before the command and after it. The former are looked at last. -/
def takeCommand : List String → Arguments → Except UsageError (Arguments × Scope × Arguments)
  | [], args => do
      let args ← args.settle
      throw (if args.isExplicit then .missingCommand else .nothingGiven)
  | text :: texts, args => do
      let known := text = "help" ∨ (Scope.named? text).isSome
      if args.closed then
        throw (if known then .unknownArgument else .unknownCommand)
      else
        match Word.ofText text, args.pending with
        | .mark, _ => takeCommand texts { args with closed := true }
        | .long name value, _ => takeCommand texts (← args.addLong .root name value)
        | .cluster letters, _ => takeCommand texts (← args.addCluster .root letters)
        | .plain text, some (.awaiting setting) =>
            takeCommand texts { args with pending := some (.valued setting text) }
        | .plain text, _ =>
            if text = "help" then throw (explain texts)
            else
              match Scope.named? text with
              | none => throw .unknownCommand
              | some scope => do
                  let inner ← takeAll scope texts {}
                  if inner.operands = [] then throw .missingOperand
                  return (← args.settle, scope, inner)

end BenchLog.CommandLine
