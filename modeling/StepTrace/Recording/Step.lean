import StepTrace.Json.Raw
import StepTrace.Names

/-!
A step is what was seen at one probe. It is written as a JSON object, and read from one or from an array
of its fields; members of other names are passed over unread.
-/
namespace StepTrace.Recording

/-- What was seen at one probe. Steps are numbered from one within their case. -/
structure Step where
  stepNumber : Nat
  file : String
  line : UInt32
  column : UInt32
  vars : Members
  ts : UInt64
  suite : String
  test : String
  returnPosition : Bool
deriving Repr, Inhabited, BEq

/-- The case that a step belongs to: the names of its suites, and its own. -/
structure CaseKey where
  suitePath : List String
  test : String
deriving DecidableEq, Repr, Inhabited

def CaseKey.suiteLabel (key : CaseKey) : String := suiteSeparator.intercalate key.suitePath

/-- The members of the given name among those that may repeat: none, or one. -/
def single? {α : Type} (members : List (String × α)) (name : String) : Option (Option α) :=
  match members.filter (·.1 == name) with
  | [] => some none
  | [m] => some (some m.2)
  | _ => none

def u32? (v : Json) : Option UInt32 := (v.below? (Nat.pow 2 32)).map .ofNat

def u64? (v : Json) : Option UInt64 := (v.below? (Nat.pow 2 64)).map .ofNat

namespace Step

def toJson (s : Step) : Json :=
  .ofMembers
    [ some ("stepNumber", .ofNat s.stepNumber)
    , some ("file", .text s.file)
    , some ("line", .ofNat s.line.toNat)
    , some ("column", .ofNat s.column.toNat)
    , some ("vars", .object s.vars)
    , some ("ts", .ofNat s.ts.toNat)
    , some ("suite", .text s.suite)
    , some ("test", .text s.test)
    , if s.returnPosition then some ("returnPosition", .bool true) else none ]

/-- A step from the values of its fields; the last one may be missing. -/
def ofFields? (number file line column vars ts suite test : Json) (ret : Option Json) :
    Option Step := do
  return {
    stepNumber := ← number.below? (Nat.pow 2 64)
    file := ← file.text?
    line := ← u32? line
    column := ← u32? column
    vars := ← vars.object?
    ts := ← u64? ts
    suite := ← suite.text?
    test := ← test.text?
    returnPosition := ← match ret with
      | none => some false
      | some v => v.bool? }

/-- A value inside the container of a step. -/
def inner? (v : Json.Raw) : Option Json := v.value? (Json.depthLimit - 1)

def ofRaw? : Json.Raw → Option Step
  | .object members => do
    let named ← members.mapM fun m => do return (← m.1.text?, m.2)
    let field? (name : String) : Option (Option Json) :=
      match single? named name with
      | none => none
      | some none => some none
      | some (some v) => (inner? v).map some
    let field (name : String) : Option Json := (field? name).bind id
    ofFields? (← field "stepNumber") (← field "file") (← field "line") (← field "column")
      (← field "vars") (← field "ts") (← field "suite") (← field "test")
      (← field? "returnPosition")
  | .array [n, f, l, c, v, t, s, e] => do
    ofFields? (← inner? n) (← inner? f) (← inner? l) (← inner? c) (← inner? v) (← inner? t)
      (← inner? s) (← inner? e) none
  | .array [n, f, l, c, v, t, s, e, r] => do
    ofFields? (← inner? n) (← inner? f) (← inner? l) (← inner? c) (← inner? v) (← inner? t)
      (← inner? s) (← inner? e) (some (← inner? r))
  | _ => none

def ofText? (text : String) : Option Step := (Json.Raw.ofText? text).bind ofRaw?

end Step
end StepTrace.Recording
