import BenchLog.Config
import BenchLog.Toml.Writer

/-! Settings as a TOML document.
Every setting is written, each part under a header of its own.
-/

namespace BenchLog.Config

open Toml

/-- The lines of a part: its header and its keys with their values. -/
def partLines (name : String) (entries : List (String × String)) : List String :=
  ("[" ++ name ++ "]") :: entries.map fun (key, value) => key ++ " = " ++ value

/-- The lines of all settings, with an empty one between the parts. -/
def tomlLines (c : Config) : List String :=
  partLines "parse"
      [("merge_policy", textValue c.parse.policy.name),
        ("description_labels", arrayValue (c.parse.labels.map textValue)),
        ("filters",
          arrayValue (c.parse.filters.map fun patterns => arrayValue (patterns.map textValue)))]
    ++ ""
    :: partLines "diff"
      [("large_threshold", numberValue c.diff.thresholds.large),
        ("report_threshold", numberValue c.diff.thresholds.report),
        ("output", textValue c.diff.output.text)]
    ++ ""
    :: partLines "summarize"
      [("mode", textValue c.summary.mode.name), ("output", textValue c.summary.output.text)]
    ++ ""
    :: partLines "report" [("colors", booleanValue c.report.colours)]

def tomlText (c : Config) : String :=
  String.join (c.tomlLines.map fun line => line ++ "\n")

end BenchLog.Config
