import StepTrace.Keyed

/-!
What a TOML file holds. A table is implicit if only tables below it were named, and dotted if it was
named by the front part of a key. Of numbers only the integers are told; other plain values are only
known to be there.
-/
namespace StepTrace.Toml

inductive Item where
  | text (s : String)
  | integer (n : Int)
  /-- A boolean, a float, or a time. -/
  | scalar
  | array (items : List Item)
  /-- A table in one line. -/
  | inlined (members : List (String × Item))
  | table (implicit dotted : Bool) (members : List (String × Item))
  /-- Tables under one header, the last one last. -/
  | tables (all : List Item)
deriving Repr, Inhabited

namespace Item

/-- A table that a header names. -/
def header (members : List (String × Item)) : Item := .table false false members

def empty : Item := header []

/-- Changes the table that a path of names leads to. Tables that are missing are created on the way. The
path of a `dotted` key may not pass through tables that a header names. -/
def within (dotted : Bool) : List String → (Item → Option Item) → Item → Option Item
  | [], change, t => change t
  | name :: path, change, .table i d members =>
    match Keyed.get? members name with
    | none => do
      let t ← within dotted path change (.table true dotted [])
      return .table i d (Keyed.put members name t)
    | some (.table i' d' inner) =>
      if dotted && !i' then none
      else do
        let t ← within dotted path change (.table i' d' inner)
        return .table i d (Keyed.put members name t)
    | some (.tables all) => do
      let last ← all.getLast?
      let t ← within dotted path change last
      return .table i d (Keyed.put members name (.tables (all.dropLast ++ [t])))
    | some _ => none
  | _, _, _ => none

/-- Puts a value under a key, which may be dotted, into a table. -/
def insert (key : List String) (v : Item) : Item → Option Item :=
  within true key.dropLast fun
    | .table i d members => do
      let name ← key.getLast?
      if d == key.dropLast.isEmpty then none
      else if (Keyed.get? members name).isSome then none
      else return .table i d (Keyed.put members name v)
    | _ => none

/-- Opens the table that a header names; it may have been implicit before. -/
def openTable (path : List String) : Item → Option Item :=
  within false path.dropLast fun
    | .table i d members => do
      let name ← path.getLast?
      match Keyed.get? members name with
      | none => return .table i d (Keyed.put members name empty)
      | some (.table true false inner) => return .table i d (Keyed.put members name (header inner))
      | some _ => none
    | _ => none

/-- Opens one more of the tables that a header in double brackets names. -/
def openNext (path : List String) : Item → Option Item :=
  within false path.dropLast fun
    | .table i d members => do
      let name ← path.getLast?
      match Keyed.get? members name with
      | none => return .table i d (Keyed.put members name (.tables [empty]))
      | some (.tables all) => return .table i d (Keyed.put members name (.tables (all ++ [empty])))
      | some _ => none
    | _ => none

/-- The table in one line that keys and values make up. -/
def inlinedOf? (pairs : List (List String × Item)) : Option Item := do
  match ← pairs.foldlM (fun t p => insert p.1 p.2 t) empty with
  | .table _ _ members => return .inlined members
  | _ => none

/-- Whether a table, or a list, holds nothing. -/
def isVacant : Item → Bool
  | array items => items.isEmpty
  | inlined members => members.isEmpty
  | table _ _ members => members.isEmpty
  | tables all => all.isEmpty
  | _ => false

def members? : Item → Option (Keyed String Item)
  | inlined members => some members
  | table _ _ members => some members
  | _ => none

end Item
end StepTrace.Toml
