import StepTrace.Script.Traced
import StepTrace.Text.Align
import StepTrace.Text.Blank

/-!
What instrumenting files has done.
-/
namespace StepTrace

namespace Script

/-- A kind of probe is told by its name, or by an object with nothing but an empty member of its name. -/
def ProbeKind.ofJson? (v : Json) : Option ProbeKind :=
  let named (s : String) := [ProbeKind.entry, .statement, .implicitReturn].find? fun k => k.name == s
  match v with
  | .text s => named s
  | .object [(s, .null)] => named s
  | _ => none

def ProbeSite.ofJson? (v : Json) : Option ProbeSite := do
  let m ← v.fields? ["kind", "line", "column", "names"]
  return {
    kind := ← ProbeKind.ofJson? (← m.get? "kind")
    position := ⟨← (← m.get? "line").below? (Nat.pow 2 64), ← (← m.get? "column").below? (Nat.pow 2 64)⟩
    names := ← (← m.get? "names").texts? }

end Script

namespace Sources

/-- A file with its probes, and where its text went; the text itself is kept if it went nowhere. -/
structure InstrumentedFile where
  fileId : String
  source : String
  output : Option String
  probes : List Script.ProbeSite
  code : Option String
deriving DecidableEq, Repr, Inhabited

structure InstrumentReport where
  files : List InstrumentedFile
  totalProbes : Nat
deriving DecidableEq, Repr, Inhabited

/-- A text that may be missing or `null`. -/
def optionalText? (m : Members) (name : String) : Option (Option String) :=
  match m.get? name with
  | none | some .null => some none
  | some v => v.text?.map some

namespace InstrumentedFile

def toJson (f : InstrumentedFile) : Json :=
  .ofMembers
    [ some ("fileId", .text f.fileId)
    , some ("source", .text f.source)
    , f.output.map fun s => ("output", .text s)
    , some ("probes", .array (f.probes.map Script.ProbeSite.toJson))
    , f.code.map fun s => ("code", .text s) ]

def ofJson? (v : Json) : Option InstrumentedFile := do
  let m ← v.fields? ["fileId", "source", "output", "probes", "code"]
  return {
    fileId := ← (← m.get? "fileId").text?
    source := ← (← m.get? "source").text?
    output := ← optionalText? m "output"
    probes := ← (← (← m.get? "probes").array?).mapM Script.ProbeSite.ofJson?
    code := ← optionalText? m "code" }

def line (f : InstrumentedFile) : String :=
  "  " ++ Text.alignRight 5 (toString f.probes.length) ++ "  " ++ f.fileId ++ " -> "
    ++ f.output.getD "-" ++ "\n"

end InstrumentedFile

namespace InstrumentReport

def ofFiles (files : List InstrumentedFile) : InstrumentReport :=
  ⟨files, files.foldr (fun f total => f.probes.length + total) 0⟩

def toJson (r : InstrumentReport) : Json :=
  .object
    [ ("files", .array (r.files.map InstrumentedFile.toJson))
    , ("totalProbes", .ofNat r.totalProbes) ]

def ofJson? (v : Json) : Option InstrumentReport := do
  let m ← v.fields? ["files", "totalProbes"]
  return {
    files := ← (← (← m.get? "files").array?).mapM InstrumentedFile.ofJson?
    totalProbes := ← (← m.get? "totalProbes").below? (Nat.pow 2 64) }

def pretty (r : InstrumentReport) : String :=
  let head := "files=" ++ toString r.files.length ++ " probes=" ++ toString r.totalProbes ++ "\n"
  Text.trimEnd (String.join (head :: r.files.map InstrumentedFile.line))

end InstrumentReport
end Sources
end StepTrace
