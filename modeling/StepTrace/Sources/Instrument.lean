import StepTrace.Config
import StepTrace.Sources.Report
import StepTrace.Sources.Select

/-!
Instrumenting files: one, or all below a directory. Files are taken in order, and what was written
before a fault stays.
-/
namespace StepTrace.Sources

/-- What is to be instrumented. -/
inductive Target where
  | file (path : Path) (out : Option Path) (fileId : Option String)
  | tree (root : Path) (patterns : List String) (out : Path)
deriving Repr, Inhabited

/-- Writes a file after creating the directories above it. -/
def deliver (d : Disk) (p : Path) (bytes : ByteArray) : Disk × Except Failure Unit :=
  let made : Disk × Except FileFault Unit :=
    match p.parent? with
    | some above => if above.text = "" then (d, .ok ()) else d.createDirAll above
    | none => (d, .ok ())
  match made with
  | (d, .error e) => (d, .error (.file e))
  | (d, .ok ()) =>
    match d.write p bytes with
    | .ok d => (d, .ok ())
    | .error e => (d, .error (.file e))

/-- Instruments one file. Without an output path its text becomes part of the report. -/
def instrumentFile (d : Disk) (path : Path) (fileId : String) (out : Option Path) :
    Disk × Except Failure InstrumentedFile :=
  match d.readText path with
  | .error e => (d, .error (.file e))
  | .ok text =>
    match Script.instrument (dialectOf path) fileId text with
    | .error r => (d, .error r.failure)
    | .ok t =>
      match out with
      | none => (d, .ok ⟨fileId, path.text, none, t.sites, some t.code⟩)
      | some p =>
        match deliver d p t.code.toUTF8 with
        | (d, .error e) => (d, .error e)
        | (d, .ok ()) => (d, .ok ⟨fileId, path.text, some p.text, t.sites, none⟩)

/-- Instruments files of a directory one after the other. -/
def instrumentAll (d : Disk) (root out : Path) : List Path → Disk × Except Failure (List InstrumentedFile)
  | [] => (d, .ok [])
  | p :: r =>
    match instrumentFile d (root.join p) (fileId p) (some (outputPath out p)) with
    | (d, .error e) => (d, .error e)
    | (d, .ok f) =>
      match instrumentAll d root out r with
      | (d, .error e) => (d, .error e)
      | (d, .ok fs) => (d, .ok (f :: fs))

-- the brackets keep this from being used for unfolding, which would try to run the instrumenter
theorem instrumentAll_cons (d : Disk) (root out p : Path) (ps : List Path) :
    instrumentAll d root out (p :: ps) =
      match instrumentFile d (root.join p) (fileId p) (some (outputPath out p)) with
      | (d, .error e) => (d, .error e)
      | (d, .ok f) =>
        match instrumentAll d root out ps with
        | (d, .error e) => (d, .error e)
        | (d, .ok fs) => (d, .ok (f :: fs)) := (rfl)

/-- Whether a file lies in the output directory, as far as that lies below the root. -/
def isOutput (root out p : Path) : Bool :=
  match out.below? root with
  | none | some [] => false
  | some inside => (Path.stripComponents? p.components inside).isSome

/-- Instruments the files below a directory, but not those of an earlier output. -/
def instrumentTree (d : Disk) (root : Path) (patterns : List String) (out : Path) :
    Disk × Except Failure (List InstrumentedFile) :=
  if !d.isDir root then
    (d, .error (.invalidArgument ("instrument root " ++ root.text ++ " is not a directory")))
  else
    match find d root (if patterns.isEmpty then defaultPatterns else patterns) with
    | .error e => (d, .error e)
    | .ok found => instrumentAll d root out (found.filter (!isOutput root out ·))

/-- The name of a single file in its steps. -/
def singleFileId (config : Config) (path : Path) (given : Option String) : String :=
  (given <|> config.filename).getD (path.text.replace "\\" "/")

def instrument (config : Config) (d : Disk) : Target → Disk × Except Failure InstrumentReport
  | .file path out given =>
    match instrumentFile d path (singleFileId config path given) out with
    | (d, .error e) => (d, .error e)
    | (d, .ok f) => (d, .ok (.ofFiles [f]))
  | .tree root patterns out =>
    match instrumentTree d root patterns out with
    | (d, .error e) => (d, .error e)
    | (d, .ok fs) => (d, .ok (.ofFiles fs))

end StepTrace.Sources
