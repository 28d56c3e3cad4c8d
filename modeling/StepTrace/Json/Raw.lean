import StepTrace.Json.Numeral
import StepTrace.Json.Quoted

/-!
JSON as it is written, before anything is made of it: numbers and texts keep their spelling, and a name
may occur twice in one object. What a tree stands for is a second step, because a part that is skipped
need not stand for anything.
-/
namespace StepTrace.Json

inductive Raw where
  | null
  | bool (b : Bool)
  | number (n : Numeral)
  | text (q : Quoted)
  | array (items : List Raw)
  | object (members : List (Quoted × Raw))
deriving Repr, Inhabited

namespace Raw

def isBlank (c : Char) : Bool := c == ' ' || c == '\t' || c == '\n' || c == '\r'

def skipBlanks (cs : List Char) : List Char := cs.dropWhile isBlank

mutual

/-- Reads one value and gives the rest. The fuel bounds the number of characters and of values. -/
def read : Nat → List Char → Option (Raw × List Char)
  | 0, _ => none
  | fuel + 1, cs =>
    match skipBlanks cs with
    | 'n' :: 'u' :: 'l' :: 'l' :: r => some (.null, r)
    | 't' :: 'r' :: 'u' :: 'e' :: r => some (.bool true, r)
    | 'f' :: 'a' :: 'l' :: 's' :: 'e' :: r => some (.bool false, r)
    | '"' :: r => do
      let (q, r) ← Quoted.read r
      return (.text q, r)
    | '[' :: r =>
      match skipBlanks r with
      | ']' :: r => some (.array [], r)
      | r => do
        let (items, r) ← readItems fuel r
        return (.array items, r)
    | '\x7b' :: r =>
      match skipBlanks r with
      | '\x7d' :: r => some (.object [], r)
      | r => do
        let (members, r) ← readMembers fuel r
        return (.object members, r)
    | r => do
      let (n, r) ← Numeral.read r
      return (.number n, r)

/-- Reads the items of an array up to its closing bracket. -/
def readItems : Nat → List Char → Option (List Raw × List Char)
  | 0, _ => none
  | fuel + 1, cs => do
    let (v, r) ← read fuel cs
    match skipBlanks r with
    | ',' :: r =>
      let (vs, r) ← readItems fuel r
      return (v :: vs, r)
    | ']' :: r => return ([v], r)
    | _ => none

/-- Reads the members of an object up to its closing bracket. -/
def readMembers : Nat → List Char → Option (List (Quoted × Raw) × List Char)
  | 0, _ => none
  | fuel + 1, cs =>
    match skipBlanks cs with
    | '"' :: r => do
      let (name, r) ← Quoted.read r
      match skipBlanks r with
      | ':' :: r =>
        let (v, r) ← read fuel r
        match skipBlanks r with
        | ',' :: r =>
          let (vs, r) ← readMembers fuel r
          return ((name, v) :: vs, r)
        | '\x7d' :: r => return ([(name, v)], r)
        | _ => none
      | _ => none
    | _ => none

end

/-- The tree of a whole text. -/
def ofText? (s : String) : Option Raw :=
  let cs := s.toList
  match read (2 * cs.length + 2) cs with
  | some (v, r) => if (skipBlanks r).isEmpty then some v else none
  | none => none

mutual

/-- The value that a tree stands for, if its containers are nested no deeper than said. Of members of
the same name the last one counts, in the place of the first. -/
def value? (depth : Nat) : Raw → Option Json
  | .null => some .null
  | .bool b => some (.bool b)
  | .number n => n.value?
  | .text q => q.text?.map .text
  | .array items => if depth = 0 then none else (values? (depth - 1) items).map .array
  | .object ms =>
    if depth = 0 then none else (members? (depth - 1) ms).map fun ps => .object (Keyed.ofList ps)

def values? (depth : Nat) : List Raw → Option (List Json)
  | [] => some []
  | v :: r => do return (← value? depth v) :: (← values? depth r)

def members? (depth : Nat) : List (Quoted × Raw) → Option (List (String × Json))
  | [] => some []
  | (name, v) :: r => do return (← name.text?, ← value? depth v) :: (← members? depth r)

end

end Raw

/-- Containers may be nested in each other up to this depth. -/
def depthLimit : Nat := 127

/-- The value of a text whose containers are nested no deeper than said. -/
def ofText? (depth : Nat) (s : String) : Option Json := (Raw.ofText? s).bind (Raw.value? depth)

end StepTrace.Json
