import StepTrace.Files.Disk
import StepTrace.Json.Text
import StepTrace.Recording.Recorder
import StepTrace.Store.Segment

/-!
A store of steps: every case has a directory below those of its suites, and every step is a file there
that is named by its number. Files are created, never written again.
-/
namespace StepTrace.Store

open Recording

/-- The directory of a case below the root of a store. -/
def caseDir (root : Path) (key : CaseKey) : Path :=
  (key.suitePath ++ [key.test]).foldl (fun dir name => dir.join ⟨segment name⟩) root

/-- The file of a step. -/
def stepFile (root : Path) (o : Offer) : Path :=
  (caseDir root o.case).join ⟨toString o.step.stepNumber ++ ".json"⟩

/-- What the file of a step holds. -/
def content (s : Step) : ByteArray := s.toJson.indentedText.toUTF8

def existsMessage : String :=
  "step file already exists (store not cleared, or duplicate case name)"

/-- Creates the file of a step with the directories above it, and gives its path. -/
def write (root : Path) (d : Disk) (o : Offer) : Disk × Except Failure Path :=
  match d.createDirAll (caseDir root o.case) with
  | (d, .error e) => (d, .error (.file e))
  | (d, .ok ()) =>
    let path := stepFile root o
    match d.createFile path (content o.step) with
    | .ok d => (d, .ok path)
    | .error .alreadyExists => (d, .error (.store path.text existsMessage))
    | .error e => (d, .error (.file e))

/-- The store as a sink of steps. -/
def sink (root : Path) : Sink Disk := fun d o =>
  match write root d o with
  | (d, .ok _) => (d, true)
  | (d, .error _) => (d, false)

end StepTrace.Store
