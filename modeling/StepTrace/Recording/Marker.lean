import StepTrace.Recording.Bindings

/-!
Values that JSON cannot hold are sent as markers: objects with a text under a certain key. Inside other
values a marker is replaced by a text that shows it; at the top of a binding a marker may also say that
the read failed.
-/
namespace StepTrace.Recording

namespace Marker

/-- What an object is a marker of, if it is one. -/
def tagOf? (members : Members) : Option String := (members.get? markerKey).bind Json.text?

/-- The text under a name, empty if there is none. -/
def field (members : Members) (name : String) : String :=
  ((members.get? name).bind Json.text?).getD ""

/-- The text that shows a marker. -/
def text (tag : String) (members : Members) : String :=
  match tag with
  | "undefined" => "[undefined]"
  | "promise" => "[Promise]"
  | "function" =>
    let name := field members "name"
    if name.isEmpty then "[Function (anonymous)]" else "[Function " ++ name ++ "]"
  | "symbol" => "Symbol(" ++ field members "description" ++ ")"
  | "bigint" => field members "value" ++ "n"
  | "unavailable" => (CaptureFault.unavailable "").placeholder
  | "unserializable" => (CaptureFault.unserializable "").placeholder
  | "truncated" => "[Truncated]"
  | other => "[" ++ other ++ "]"

mutual

/-- Replaces every marker in a value by its text. -/
def decode : Json → Json
  | .array items => .array (decodeAll items)
  | .object members =>
    match tagOf? members with
    | some tag => .text (text tag members)
    | none => .object (decodeMembers members)
  | .null => .null
  | .bool b => .bool b
  | .int n => .int n
  | .float x => .float x
  | .text s => .text s

def decodeAll : List Json → List Json
  | [] => []
  | v :: r => decode v :: decodeAll r

def decodeMembers : List (String × Json) → List (String × Json)
  | [] => []
  | (name, v) :: r => (name, decode v) :: decodeMembers r

end

/-- What is told of a failed read. -/
def detail (name : String) (members : Members) : String :=
  match (members.get? "reason").bind Json.text? with
  | some reason => name ++ ": " ++ reason
  | none => name

/-- The value of a binding that was sent under a name. -/
def read (name : String) (v : Json) : Except CaptureFault Json :=
  match v with
  | .object members =>
    match tagOf? members with
    | some "unavailable" => .error (.unavailable (detail name members))
    | some "unserializable" => .error (.unserializable (detail name members))
    | _ => .ok (decode v)
  | _ => .ok (decode v)

end Marker

/-- The bindings of an event. -/
def Bindings.ofSent (vars : Members) : Bindings where
  names := vars.keys
  read name :=
    match vars.get? name with
    | some v => Marker.read name v
    | none => .error (.unavailable ("no binding named " ++ name))

end StepTrace.Recording
