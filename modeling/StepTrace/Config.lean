import StepTrace.Files.Disk
import StepTrace.Recording.Ledger
import StepTrace.Toml.Read

/-!
The settings of a project, from a file in TOML. Every setting may be missing; a file that cannot be read
leaves all of them at their defaults.
-/
namespace StepTrace

/-- How results are shown. -/
inductive Reporter where
  | pretty
  | json
deriving DecidableEq, Repr, Inhabited

namespace Reporter

def name : Reporter → String
  | pretty => "pretty"
  | json => "json"

def ofName? (s : String) : Option Reporter := [pretty, json].find? fun r => r.name == s

end Reporter

structure Config where
  /-- The root of the store. -/
  storeDir : Path := ⟨".stepwise/steps"⟩
  /-- The suite of steps outside every declared suite. -/
  suiteName : String := noSuite
  /-- How many variables of a step are kept. -/
  maxVars : Option Nat := none
  /-- The name of a file for which no other is known. -/
  filename : Option String := none
  reporter : Reporter := .pretty
deriving DecidableEq, Repr, Inhabited

namespace Config

/-- The name of a file for which neither the call nor the settings give one. -/
def fallbackFile (c : Config) : String := c.filename.getD unknownFile

def recordingOptions (c : Config) : Recording.Options where
  suiteName := c.suiteName
  maxVars := c.maxVars
  filename := c.fallbackFile

/-- A setting that may be missing. -/
def setting? {α : Type} (members : Keyed String Toml.Item) (name : String)
    (read : Toml.Item → Option α) : Option (Option α) :=
  match members.get? name with
  | none => some none
  | some v => (read v).map some

def textOf? : Toml.Item → Option String
  | .text s => some s
  | _ => none

def countOf? : Toml.Item → Option Nat
  | .integer (.ofNat n) => some n
  | _ => none

/-- A reporter is told by its name, or by a table with nothing but an empty member of its name. -/
def reporterOf? : Toml.Item → Option Reporter
  | .text s => Reporter.ofName? s
  | v =>
    match v.members? with
    | some [(name, inner)] => if inner.isVacant then Reporter.ofName? name else none
    | _ => none

def ofToml? (root : Toml.Item) : Option Config := do
  let ms ← root.members?
  let default : Config := {}
  return {
    storeDir := ((← setting? ms "store_dir" textOf?).map Path.mk).getD default.storeDir
    suiteName := (← setting? ms "suite_name" textOf?).getD default.suiteName
    maxVars := ← setting? ms "max_vars" countOf?
    filename := ← setting? ms "filename" textOf?
    reporter := (← setting? ms "reporter" reporterOf?).getD default.reporter }

/-- The settings in a file, or the defaults. -/
def load (d : Disk) (p : Path) : Config :=
  match d.readText p with
  | .error _ => {}
  | .ok s => ((Toml.ofText? s).bind ofToml?).getD {}

end Config
end StepTrace
