import StepTrace.About
import StepTrace.Command.Globals
import StepTrace.Command.Line
import StepTrace.Prelude
import StepTrace.Recording.Ingest
import StepTrace.Sources.Instrument
import StepTrace.Store.Scan
import StepTrace.Store.Write

/-!
Carrying out what the arguments of the program ask for, on a disk.
-/
namespace StepTrace.Command

/-- What a run finds. -/
structure Setting where
  disk : Disk
  /-- The standard input. -/
  input : List UInt8
  /-- The time, in milliseconds. -/
  now : UInt64
  /-- The time, as it is shown. -/
  time : String
deriving Inhabited

/-- What a run leaves besides the disk. -/
structure Outcome where
  code : Nat := 0
  out : String := ""
  err : String := ""
deriving DecidableEq, Repr, Inhabited

/-- Prints a line. -/
def Outcome.line (text : String) : Outcome := { out := text ++ "\n" }

/-- Why a task came to nothing. -/
inductive TaskFault where
  | noDirectory (p : Path) (cause : FileFault)
  | noOutput
  | failed (cause : Failure)
deriving DecidableEq, Repr, Inhabited

namespace TaskFault

/-- The text of a fault, and after it that of its cause, which files and JSON have. -/
def message : TaskFault → String
  | noDirectory p cause => "failed to set cwd to " ++ p.text ++ ": " ++ cause.message
  | noOutput => "--out <dir> is required with --root"
  | failed cause =>
    match cause with
    | .file f => cause.message ++ ": " ++ f.message
    | .json m => cause.message ++ ": " ++ m
    | _ => cause.message

def outcome (json : Bool) (f : TaskFault) : Outcome :=
  if json then
    let v : Json := .object
      [("status", .text "error"), ("code", .text "error"), ("message", .text f.message)]
    { code := 2, out := v.compactText ++ "\n" }
  else { code := 2, err := f.message ++ "\n" }

end TaskFault

/-- JSON as a line, or indented if JSON was not asked for. -/
def showJson (json : Bool) (v : Json) : Outcome :=
  .line (if json then v.compactText else v.indentedText)

/-- A result in the form that options and settings ask for. -/
def present (globals : Globals) (config : Config) (reporter : Option Reporter) (v : Json)
    (pretty : String) : Outcome :=
  if globals.json || reporter.getD config.reporter == .json then showJson globals.json v
  else .line pretty

def target (out : Option Path) : Subject → Except TaskFault Sources.Target
  | .file p fileId => .ok (.file p out fileId)
  | .tree root patterns =>
    match out with
    | some out => .ok (.tree root patterns out)
    | none => .error .noOutput

/-- A single text is printed as it is; otherwise it is told what was done. -/
def showReport (json : Bool) (r : Sources.InstrumentReport) : Outcome :=
  if json then showJson true r.toJson
  else
    match r.files with
    | [{ code := some code, .. }] => { out := code }
    | _ => .line r.pretty

def showWritten (json : Bool) (p : Path) : Outcome :=
  if json then showJson true (.object [("path", .text p.text)]) else .line ("wrote " ++ p.text)

def isStandardInput (p : Path) : Bool := p.text == "-"

def eventBytes (s : Setting) (p : Path) : Except FileFault (List UInt8) :=
  if isStandardInput p then .ok s.input else (s.disk.read p).map ByteArray.toList

/-- Records the events of a file in a store. -/
def ingest (s : Setting) (config : Config) (events store : Path) :
    Disk × Except Failure Recording.Summary :=
  match eventBytes s events with
  | .error e => (s.disk, .error (.file e))
  | .ok bytes =>
    let start : Recording.Recorder Disk := { options := config.recordingOptions, sink := s.disk }
    match Recording.ingest (Store.sink store) s.now start bytes with
    | (r, some tally) => (r.sink, .ok ⟨tally, s.time, s.time⟩)
    | (r, none) => (r.sink, .error (.file .notText))

/-- The files and directories that a task may read or write. -/
def Task.paths (config : Config) : Task → List Path
  | .instrument (.file p _) out => p :: out.toList
  | .instrument (.tree root _) out => root :: out.toList
  | .prelude out => out.toList
  | .ingest events store _ => [events, store.getD config.storeDir]
  | .verify store _ => [store.getD config.storeDir]
  | .version | .usage => []

/-- Whether a task takes the standard input. -/
def Task.readsInput : Task → Bool
  | .ingest events _ _ => isStandardInput events
  | _ => false

/-- Gives the disk back with an outcome or a fault. -/
def finish {α : Type} (shown : α → Outcome) : Disk × Except Failure α → Disk × Except TaskFault Outcome
  | (d, .ok a) => (d, .ok (shown a))
  | (d, .error e) => (d, .error (.failed e))

def perform (s : Setting) (globals : Globals) (config : Config) :
    Task → Disk × Except TaskFault Outcome
  | .instrument subject out =>
    match target out subject with
    | .error f => (s.disk, .error f)
    | .ok t => finish (showReport globals.json) (Sources.instrument config s.disk t)
  | .prelude none => (s.disk, .ok { out := Prelude.text })
  | .prelude (some p) =>
    finish (fun _ => showWritten globals.json p) (Sources.deliver s.disk p Prelude.text.toUTF8)
  | .ingest events store reporter =>
    finish (fun r => present globals config reporter r.toJson r.pretty)
      (ingest s config events (store.getD config.storeDir))
  | .verify store reporter =>
    let shown (r : Store.StoreReport) : Outcome :=
      { present globals config reporter r.toJson r.pretty with code := if r.hasGaps then 1 else 0 }
    finish shown (s.disk, Store.scan s.disk (store.getD config.storeDir) config.suiteName)
  | .version => (s.disk, .ok (showJson globals.json versionJson))
  | .usage =>
    (s.disk, .ok (if globals.json then showJson true usageDoc.toJson else .line usageDoc.pretty))

/-- Goes to the working directory, reads the settings there, and carries out a task. -/
def carryOut (s : Setting) (globals : Globals) (task : Task) : Disk × Outcome :=
  let settle : Disk × Except TaskFault Outcome → Disk × Outcome
    | (d, .ok o) => (d, o)
    | (d, .error f) => (d, f.outcome globals.json)
  match globals.cwd with
  | none => settle (perform s globals (Config.load s.disk globals.config) task)
  | some p =>
    match s.disk.changeDir p with
    | .error e => (s.disk, (TaskFault.noDirectory p e).outcome globals.json)
    | .ok d => settle (perform { s with disk := d } globals (Config.load d globals.config) task)

/-- What the arguments ask for; the first one is the name of the program. -/
def request (args : List String) : Except UsageFault Request := read ((hoist args).drop 1)

/-- Runs the program. The first argument is its name. -/
def run (s : Setting) (args : List String) : Disk × Outcome :=
  match request args with
  | .error f => (s.disk, { code := 2, err := f.text })
  | .ok (.help text) => (s.disk, { out := text })
  | .ok .nothing => (s.disk, { code := 2, err := programHelp })
  | .ok (.task globals task) => carryOut s globals task

end StepTrace.Command
