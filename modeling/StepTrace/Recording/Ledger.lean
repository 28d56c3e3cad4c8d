import StepTrace.Recording.Marker
import StepTrace.Recording.Step
import StepTrace.Recording.Suites

/-!
Which case a step belongs to, and its number there. Every stream has its own suites, active case and
counter; the steps outside all cases are counted for each suite path, over all streams together.
-/
namespace StepTrace.Recording

structure Options where
  /-- The suite of steps outside every declared suite. -/
  suiteName : String := noSuite
  maxVars : Option Nat := none
  /-- The file of steps that do not say theirs. -/
  filename : String := unknownFile
deriving DecidableEq, Repr, Inhabited

/-- What a probe reports. -/
structure Call where
  line : UInt32
  column : UInt32
  bindings : Bindings
  returnPosition : Bool
  file : Option String
  ts : Option UInt64

inductive Operation where
  | enterSuite (name : String)
  | exitSuite
  | startCase (name : String) (suitePath : Option (List String))
  | endCase
  | reset
  | record (call : Call)

/-- A case that has been started, with the suites it was declared in if it said any. -/
structure ActiveCase where
  name : String
  suitePath : Option (List String)
deriving DecidableEq, Repr, Inhabited

/-- What is known of one stream of events. -/
structure StreamState where
  counter : Nat := 0
  suites : Suites := .empty
  active : Option ActiveCase := none
deriving DecidableEq, Repr, Inhabited

/-- A step with the case it is offered under. -/
structure Offer where
  case : CaseKey
  step : Step
deriving Repr, Inhabited, BEq

namespace StreamState

/-- The case of the next step. -/
def currentCase (s : StreamState) (options : Options) : CaseKey :=
  match s.active with
  | some ⟨name, some path⟩ => ⟨path, name⟩
  | some ⟨name, none⟩ => ⟨s.suites.pathOr options.suiteName, name⟩
  | none => ⟨s.suites.pathOr options.suiteName, unknownTest⟩

/-- Starts a case and its numbering. An empty suite path counts as none. -/
def startCase (s : StreamState) (name : String) (suitePath : Option (List String)) : StreamState :=
  { s with counter := 0, active := some ⟨name, suitePath.filter (!·.isEmpty)⟩ }

end StreamState

structure Ledger where
  streams : Keyed String StreamState := []
  /-- How many steps outside all cases there were, by suite path. -/
  idle : Keyed (List String) Nat := []
  /-- How many cases were started. -/
  cases : Nat := 0
deriving Repr, Inhabited

namespace Ledger

def stream (l : Ledger) (id : String) : StreamState := (l.streams.get? id).getD {}

def setStream (l : Ledger) (id : String) (s : StreamState) : Ledger :=
  { l with streams := l.streams.put id s }

def idleCount (l : Ledger) (path : List String) : Nat := (l.idle.get? path).getD 0

/-- The step of a call under its number; a call without a time is stamped with `now`. -/
def stepOf (options : Options) (now : UInt64) (case : CaseKey) (number : Nat) (call : Call) : Step where
  stepNumber := number
  file := (call.file.filter (!·.isEmpty)).getD options.filename
  line := call.line
  column := call.column
  vars := call.bindings.capture options.maxVars
  ts := call.ts.getD now
  suite := case.suiteLabel
  test := case.test
  returnPosition := call.returnPosition

/-- Numbers a call: within the active case of its stream, or among the steps outside all cases. -/
def record (options : Options) (now : UInt64) (l : Ledger) (id : String) (call : Call) :
    Ledger × Offer :=
  let s := l.stream id
  let case := s.currentCase options
  if s.active.isSome then
    let n := s.counter + 1
    (l.setStream id { s with counter := n }, ⟨case, stepOf options now case n call⟩)
  else
    let n := l.idleCount case.suitePath + 1
    ({ l.setStream id s with idle := l.idle.put case.suitePath n },
      ⟨case, stepOf options now case n call⟩)

/-- The state after an operation of a stream, and the step that it offers. -/
def apply (options : Options) (now : UInt64) (l : Ledger) (id : String) :
    Operation → Ledger × Option Offer
  | .enterSuite name =>
    let s := l.stream id
    (l.setStream id { s with suites := s.suites.push name }, none)
  | .exitSuite =>
    let s := l.stream id
    (l.setStream id { s with suites := s.suites.pop }, none)
  | .startCase name path =>
    ({ l.setStream id ((l.stream id).startCase name path) with cases := l.cases + 1 }, none)
  | .endCase => (l.setStream id { l.stream id with active := none }, none)
  | .reset => (l.setStream id { l.stream id with counter := 0 }, none)
  | .record call =>
    let (l, offer) := record options now l id call
    (l, some offer)

end Ledger
end StepTrace.Recording
