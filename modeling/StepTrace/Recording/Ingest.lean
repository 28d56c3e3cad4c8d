import StepTrace.Recording.Event
import StepTrace.Recording.Recorder
import StepTrace.Text.Blank

/-!
A file of events is taken line by line. Blank lines mean nothing, lines that are no events are counted
and passed over, and a line that is no text ends the run.
-/
namespace StepTrace.Recording

/-- The lines of a file, without the line feeds that end them; `line` holds, backwards, what was read
of the first one. -/
def linesFrom (line : List UInt8) : List UInt8 → List (List UInt8)
  | [] => if line.isEmpty then [] else [line.reverse]
  | b :: r => if b = 0x0A then line.reverse :: linesFrom [] r else linesFrom (b :: line) r

def linesOf (bytes : List UInt8) : List (List UInt8) := linesFrom [] bytes

/-- What happened in one run. -/
structure Tally where
  events : Nat
  streams : Nat
  cases : Nat
  stepsWritten : Nat
  stepsDropped : Nat
  malformedLines : Nat
deriving DecidableEq, Repr, Inhabited

/-- A run with the times at which it started and finished. -/
structure Summary where
  tally : Tally
  startedAt : String
  finishedAt : String
deriving DecidableEq, Repr, Inhabited

namespace Summary

def toJson (s : Summary) : Json :=
  .ofMembers
    [ some ("events", .ofNat s.tally.events)
    , some ("streams", .ofNat s.tally.streams)
    , some ("cases", .ofNat s.tally.cases)
    , some ("stepsWritten", .ofNat s.tally.stepsWritten)
    , some ("stepsDropped", .ofNat s.tally.stepsDropped)
    , some ("malformedLines", .ofNat s.tally.malformedLines)
    , some ("startedAt", .text s.startedAt)
    , some ("finishedAt", .text s.finishedAt) ]

def ofJson? (v : Json) : Option Summary := do
  let m ← v.fields? ["events", "streams", "cases", "stepsWritten", "stepsDropped", "malformedLines",
    "startedAt", "finishedAt"]
  let number (name : String) : Option Nat := (m.get? name).bind (Json.below? (Nat.pow 2 64))
  return {
    tally := {
      events := ← number "events"
      streams := ← number "streams"
      cases := ← number "cases"
      stepsWritten := ← number "stepsWritten"
      stepsDropped := ← number "stepsDropped"
      malformedLines := ← number "malformedLines" }
    startedAt := ← (← m.get? "startedAt").text?
    finishedAt := ← (← m.get? "finishedAt").text? }

def pretty (s : Summary) : String :=
  let t := s.tally
  let item (name : String) (n : Nat) : String := name ++ "=" ++ toString n
  " ".intercalate
      [ item "events" t.events, item "streams" t.streams, item "cases" t.cases
      , item "steps" t.stepsWritten, item "dropped" t.stepsDropped
      , item "malformed" t.malformedLines ]
    ++ "\nstarted=" ++ s.startedAt ++ " finished=" ++ s.finishedAt

end Summary

/-- A run under way: the recorder, the events and bad lines so far, and the streams seen. -/
structure Run (σ : Type) where
  recorder : Recorder σ
  events : Nat := 0
  malformed : Nat := 0
  streams : List String := []

namespace Run

variable {σ : Type}

/-- Takes an event that was read. -/
def event (accept : Sink σ) (now : UInt64) (run : Run σ) (e : StreamEvent) : Run σ :=
  let id := e.stream.getD defaultStream
  { run with
    recorder := run.recorder.apply accept now id e.event.operation
    events := run.events + 1
    streams := if id ∈ run.streams then run.streams else run.streams ++ [id] }

/-- Takes one line. -/
def line (accept : Sink σ) (now : UInt64) (run : Run σ) (text : String) : Run σ :=
  let trimmed := Text.trim text
  if trimmed.isEmpty then run
  else
    match StreamEvent.ofText? trimmed with
    | some e => run.event accept now e
    | none => { run with malformed := run.malformed + 1 }

/-- Takes lines up to the first that is no text; the answer says whether there was none such. -/
def lines (accept : Sink σ) (now : UInt64) (run : Run σ) : List (List UInt8) → Run σ × Bool
  | [] => (run, true)
  | l :: r =>
    match String.fromUTF8? ⟨l.toArray⟩ with
    | some text => lines accept now (run.line accept now text) r
    | none => (run, false)

/-- What happened since the recorder was in the given state. -/
def tally (run : Run σ) (before : Recorder σ) : Tally where
  events := run.events
  streams := run.streams.length
  cases := run.recorder.ledger.cases - before.ledger.cases
  stepsWritten := run.recorder.written - before.written
  stepsDropped := run.recorder.dropped - before.dropped
  malformedLines := run.malformed

end Run

/-- Feeds a file of events to a recorder. There is no tally if a line is no text; what came before that
line has been recorded. -/
def ingest {σ : Type} (accept : Sink σ) (now : UInt64) (r : Recorder σ) (bytes : List UInt8) :
    Recorder σ × Option Tally :=
  let (run, complete) := Run.lines accept now { recorder := r } (linesOf bytes)
  (run.recorder, if complete then some (run.tally r) else none)

end StepTrace.Recording
