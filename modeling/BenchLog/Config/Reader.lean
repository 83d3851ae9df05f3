import BenchLog.Config
import BenchLog.Failure
import BenchLog.Text.Utf8
import BenchLog.Toml.Reader

/-! Settings from a TOML document.
A part may be given as a table, whose unknown keys are passed over, or as an array of its values in
order. What is not given keeps its default; what is given must fit.
-/

namespace BenchLog

namespace Toml.Value

def text? : Value → Option String
  | .text value => some value
  | _ => none

/-- A number, for which an integer may stand. -/
def number? : Value → Option Float
  | .number value => some value
  | .integer n => some (Decimal.floatOfCode (decide (n < 0)) (Decimal.nearestCode ⟨n.natAbs, 1⟩))
  | _ => none

def boolean? : Value → Option Bool
  | .boolean value => some value
  | _ => none

/-- The items of an array or of the tables under one header. -/
def items? : Value → Option (List Value)
  | .array items => some items
  | .tables elements => some elements
  | _ => none

def list? {α : Type} (item? : Value → Option α) (value : Value) : Option (List α) :=
  value.items?.bind fun items => items.mapM item?

def isEmpty : Value → Bool
  | .array items => items.isEmpty
  | .table _ entries => entries.isEmpty
  | _ => false

/-- One of several names, given as a text or as the only key of a table, with nothing under it. -/
def name? {α : Type} (named? : String → Option α) : Value → Option α
  | .text name => named? name
  | .table _ [(name, value)] => if value.isEmpty then named? name else none
  | _ => none

/-- The value of a part at a key and a position, if it is given. A moment of time is a part without
any known key. -/
def field? (key : String) (position : Nat) : Value → Option (Option Value)
  | .table _ entries => some (lookup key entries)
  | .array items => some items[position]?
  | .tables elements => some elements[position]?
  | .moment => some none
  | _ => none

/-- What is given for a part, or its default. -/
def fieldOr {α : Type} (value : Value) (key : String) (position : Nat) (standard : α)
    (read? : Value → Option α)
    : Option α :=
  match value.field? key position with
  | some (some given) => read? given
  | some none => some standard
  | none => none

end Toml.Value

open Toml

def Path.ofToml? (value : Value) : Option Path :=
  value.text?.map Path.mk

def ParseSettings.ofToml? (value : Value) : Option ParseSettings := do
  let standard : ParseSettings := {}
  return {
    policy := ← value.fieldOr "merge_policy" 0 standard.policy (Value.name? Policy.named?)
    labels := ← value.fieldOr "description_labels" 1 standard.labels (Value.list? Value.text?)
    filters :=
      ← value.fieldOr "filters" 2 standard.filters (Value.list? (Value.list? Value.text?)) }

def DiffSettings.ofToml? (value : Value) : Option DiffSettings := do
  let standard : DiffSettings := {}
  let large ← value.fieldOr "large_threshold" 0 standard.thresholds.large Value.number?
  let report ← value.fieldOr "report_threshold" 1 standard.thresholds.report Value.number?
  let output ← value.fieldOr "output" 2 standard.output Path.ofToml?
  return { thresholds := { large, report }, output }

def SummarySettings.ofToml? (value : Value) : Option SummarySettings := do
  let standard : SummarySettings := {}
  return {
    mode := ← value.fieldOr "mode" 0 standard.mode (Value.name? Mode.named?)
    output := ← value.fieldOr "output" 1 standard.output Path.ofToml? }

def ReportSettings.ofToml? (value : Value) : Option ReportSettings := do
  let standard : ReportSettings := {}
  return { colours := ← value.fieldOr "colors" 0 standard.colours Value.boolean? }

namespace Config

def ofToml? (value : Value) : Option Config := do
  return {
    parse := ← value.fieldOr "parse" 0 {} ParseSettings.ofToml?
    diff := ← value.fieldOr "diff" 1 {} DiffSettings.ofToml?
    summary := ← value.fieldOr "summarize" 2 {} SummarySettings.ofToml?
    report := ← value.fieldOr "report" 3 {} ReportSettings.ofToml? }

def ofText? (text : String) : Option Config :=
  (read? text).bind ofToml?

variable {m : Type → Type} [Monad m] [Disk m]

def load (path : Path) : m (Except Failure Config) := do
  match ← Disk.read path with
  | .error e => return .error (.readSettings path e)
  | .ok bytes =>
      match Text.textOfBytes? bytes with
      | none => return .error (.garbledSettings path)
      | some text =>
          match ofText? text with
          | none => return .error (.invalidSettings path)
          | some config => return .ok config

/-- The settings in a file, or the defaults if there is no file. -/
def loadIfExists (path : Path) : m (Except Failure Config) := do
  if ← Disk.exists? path then load path else return .ok {}

end Config

end BenchLog
