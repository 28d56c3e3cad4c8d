import StepTrace.Json.Text
import StepTrace.Recording.Ledger

/-!
Events as programs write them: one JSON object to a line, with the kind of the event and the stream it
belongs to among its members. Members of other names mean nothing; a member that means something may
occur once only.
-/
namespace StepTrace.Recording

/-- A step that an event reports. -/
structure Sighting where
  line : UInt32
  column : UInt32
  vars : Members
  ret : Bool
  file : Option String
  ts : Option UInt64
deriving Repr, Inhabited, BEq

inductive Event where
  | suiteEnter (name : String)
  | suiteExit
  | caseStart (name : String) (suite : Option (List String))
  | caseEnd
  | reset
  | record (sighting : Sighting)
deriving Repr, Inhabited, BEq

/-- An event with the stream that it belongs to. -/
structure StreamEvent where
  stream : Option String
  event : Event
deriving Repr, Inhabited, BEq

namespace Event

/-- The names of the kinds, in the order in which they are numbered. -/
def kinds : List String :=
  ["suite_enter", "suite_exit", "case_start", "case_end", "reset", "record"]

def kind : Event → String
  | suiteEnter _ => "suite_enter"
  | suiteExit => "suite_exit"
  | caseStart _ _ => "case_start"
  | caseEnd => "case_end"
  | reset => "reset"
  | record _ => "record"

/-- What an event does to a ledger. -/
def operation : Event → Operation
  | suiteEnter name => .enterSuite name
  | suiteExit => .exitSuite
  | caseStart name suite => .startCase name suite
  | caseEnd => .endCase
  | reset => .reset
  | record s => .record ⟨s.line, s.column, .ofSent s.vars, s.ret, s.file, s.ts⟩

/-- The members of an event after its kind; some may be left out. -/
def fields : Event → List (Option (String × Json))
  | suiteEnter name => [some ("name", .text name)]
  | caseStart name suite =>
    [some ("name", .text name), suite.map fun s => ("suite", .ofTexts s)]
  | record s =>
    [ some ("line", .ofNat s.line.toNat)
    , some ("column", .ofNat s.column.toNat)
    , some ("vars", .object s.vars)
    , some ("ret", .bool s.ret)
    , s.file.map fun f => ("file", .text f)
    , s.ts.map fun t => ("ts", .ofNat t.toNat) ]
  | _ => []

/-- A member that may be missing. The value is read as told; there is no event if that fails, or if the
member occurs twice. -/
def member? {α : Type} (members : List (String × Json)) (name : String) (read : Json → Option α) :
    Option (Option α) :=
  match single? members name with
  | none => none
  | some none => some none
  | some (some v) => (read v).map some

/-- A member that may be missing or `null`. -/
def nullable? {α : Type} (members : List (String × Json)) (name : String) (read : Json → Option α) :
    Option (Option α) :=
  match single? members name with
  | none => none
  | some none => some none
  | some (some .null) => some none
  | some (some v) => (read v).map some

def required? {α : Type} (members : List (String × Json)) (name : String) (read : Json → Option α) :
    Option α := (member? members name read).bind id

/-- A kind is told by its name or by its number. -/
def kind? : Json → Option String
  | .text k => if k ∈ kinds then some k else none
  | .int (.ofNat n) => kinds[n]?
  | _ => none

/-- The event of a kind with the given members. -/
def ofMembers? (members : List (String × Json)) : String → Option Event
  | "suite_enter" => do return .suiteEnter (← required? members "name" Json.text?)
  | "suite_exit" => some .suiteExit
  | "case_start" => do
    return .caseStart (← required? members "name" Json.text?)
      (← nullable? members "suite" Json.texts?)
  | "case_end" => some .caseEnd
  | "reset" => some .reset
  | "record" => do
    return .record {
      line := ← required? members "line" u32?
      column := ← required? members "column" u32?
      vars := (← member? members "vars" Json.object?).getD []
      ret := (← member? members "ret" Json.bool?).getD false
      file := ← nullable? members "file" Json.text?
      ts := ← nullable? members "ts" u64? }
  | _ => none

end Event

namespace StreamEvent

def toJson (e : StreamEvent) : Json :=
  .ofMembers ((e.stream.map fun s => ("stream", .text s))
    :: some ("kind", .text e.event.kind) :: e.event.fields)

def ofRaw? : Json.Raw → Option StreamEvent
  | .object members => do
    let members ← Json.Raw.members? (Json.depthLimit - 1) members
    let stream ← Event.nullable? members "stream" Json.text?
    let kind ← Event.required? members "kind" Event.kind?
    return ⟨stream, ← Event.ofMembers? members kind⟩
  | _ => none

def ofText? (text : String) : Option StreamEvent := (Json.Raw.ofText? text).bind ofRaw?

end StreamEvent
end StepTrace.Recording
