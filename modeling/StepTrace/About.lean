import StepTrace.Json.Basic
import StepTrace.Text.Blank

/-!
What the program says of itself: its version, and which command is for what.
-/
namespace StepTrace

def version : String := "0.1.0"

def versionJson : Json := .object [("version", .text version)]

/-- What one command is for. -/
structure UsageItem where
  command : String
  purpose : String
  how : String
deriving DecidableEq, Repr, Inhabited

structure UsageDoc where
  title : String
  items : List UsageItem
deriving DecidableEq, Repr, Inhabited

namespace UsageItem

def toJson (i : UsageItem) : Json :=
  .object [("command", .text i.command), ("when", .text i.purpose), ("how", .text i.how)]

def ofJson? (v : Json) : Option UsageItem := do
  let m ← v.fields? ["command", "when", "how"]
  return ⟨← (← m.get? "command").text?, ← (← m.get? "when").text?, ← (← m.get? "how").text?⟩

def lines (i : UsageItem) : List String :=
  [i.command ++ ":\n", "  when: " ++ i.purpose ++ "\n", "  how:  " ++ i.how ++ "\n\n"]

end UsageItem

namespace UsageDoc

def toJson (d : UsageDoc) : Json :=
  .object [("title", .text d.title), ("items", .array (d.items.map UsageItem.toJson))]

def ofJson? (v : Json) : Option UsageDoc := do
  let m ← v.fields? ["title", "items"]
  return ⟨← (← m.get? "title").text?, ← (← (← m.get? "items").array?).mapM UsageItem.ofJson?⟩

def pretty (d : UsageDoc) : String :=
  Text.trimEnd (String.join ((d.title ++ "\n\n") :: d.items.flatMap UsageItem.lines))

end UsageDoc

/-- The guide to all commands. -/
def usageDoc : UsageDoc where
  title := "Stepwise CLI usage (instrument, run your tests, ingest, inspect)"
  items :=
    [ { command := "stepwise instrument"
        purpose := "Rewrite JS/TS sources so every executed statement and function entry reports a step."
        how := "stepwise instrument src/calc.ts --out build/calc.js --file-id src/calc.ts; or a whole"
          ++ " tree: stepwise instrument --root src --glob '**/*.ts' --out build. File ids default to"
          ++ " the root-relative path in tree mode and to `filename` from stepwise.toml in single-file"
          ++ " mode." }
    , { command := "stepwise prelude"
        purpose := "Get the JavaScript runtime that defines the recorder and wraps describe/it/test."
        how := "stepwise prelude --out build/stepwise-prelude.js, then run your tests with"
          ++ " `node -r ./build/stepwise-prelude.js` (or list it as a setup file) and"
          ++ " STEPWISE_EVENTS=/tmp/events.ndjson." }
    , { command := "stepwise ingest"
        purpose := "Turn the recorded host event stream into the on-disk step tree."
        how := "stepwise ingest /tmp/events.ndjson --store .stepwise/steps (use `-` for stdin). Clear"
          ++ " the store between independent runs; existing step files are never overwritten." }
    , { command := "stepwise verify"
        purpose := "Check that every case directory holds a contiguous 1..N step sequence."
        how := "stepwise verify --store .stepwise/steps --json; exits 1 when a declared case has gaps;"
          ++ " reserved buckets are listed but never fail it." }
    , { command := "stepwise version"
        purpose := "Print version/build metadata for bug reports and CI logs."
        how := "stepwise version --json." } ]

end StepTrace
