import StepTrace.Keyed

/-!
Values of JSON. A number is an integer of at most 64 bits or a float; the members of an object keep
their order.
-/
namespace StepTrace

inductive Json where
  | null
  | bool (b : Bool)
  | int (n : Int)
  | float (x : Float)
  | text (s : String)
  | array (items : List Json)
  | object (members : List (String × Json))
deriving Repr, Inhabited, BEq

/-- The members of an object. -/
abbrev Members := Keyed String Json

namespace Json

/-- Members of which some may be missing. -/
def ofMembers (members : List (Option (String × Json))) : Json := .object (members.filterMap id)

def ofNat (n : Nat) : Json := .int n

def ofTexts (texts : List String) : Json := .array (texts.map .text)

/-- The member of that name, if the value is an object that has one. -/
def member? : Json → String → Option Json
  | .object members, name => Keyed.get? members name
  | _, _ => none

def text? : Json → Option String
  | .text s => some s
  | _ => none

def bool? : Json → Option Bool
  | .bool b => some b
  | _ => none

/-- The number, if it is whole and from 0 up to, but without, a bound. -/
def below? (bound : Nat) : Json → Option Nat
  | .int (.ofNat n) => if n < bound then some n else none
  | _ => none

def array? : Json → Option (List Json)
  | .array items => some items
  | _ => none

def object? : Json → Option Members
  | .object members => some members
  | _ => none

/-- The members of an object; the items of an array are those of the given names, in their order. -/
def fields? (names : List String) : Json → Option Members
  | .object members => some members
  | .array items => if items.length ≤ names.length then some (names.zip items) else none
  | _ => none

/-- The texts of a list of texts. -/
def texts? (v : Json) : Option (List String) := v.array?.bind (·.mapM text?)

end Json
end StepTrace
