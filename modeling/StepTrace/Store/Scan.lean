import StepTrace.Files.Disk
import StepTrace.Json.Basic
import StepTrace.Names
import StepTrace.Store.Segment
import StepTrace.Text.Align

/-!
Which cases a store holds, and which step numbers are missing in each.
-/
namespace StepTrace.Store

structure CaseReport where
  /-- The names of the directory below the root, between slashes. -/
  path : String
  steps : Nat
  contiguous : Bool
  missing : List Nat
  /-- Whether the steps were recorded outside a declared suite or case. -/
  reserved : Bool
deriving DecidableEq, Repr, Inhabited

structure StoreReport where
  root : String
  cases : List CaseReport
  totalSteps : Nat
deriving DecidableEq, Repr, Inhabited

/-- The number that a name stands for: digits, perhaps after a plus sign, below 2 ^ 64. -/
def number? (s : String) : Option Nat :=
  let digits :=
    match s.toList with
    | '+' :: r => r
    | r => r
  if digits.isEmpty || !digits.all Char.isDigit then none
  else
    let n := digits.foldl (fun n c => n * 10 + (c.toNat - '0'.toNat)) 0
    if n < Nat.pow 2 64 then some n else none

/-- The step number that a file name gives. -/
def stepNumber? (name : String) : Option Nat :=
  match Path.splitName name with
  | (stem, some "json") => number? stem
  | _ => none

/-- The directory and the step number of a file that holds a step. -/
def stepOf? (names : List String) : Option (List String × Nat) :=
  (names.getLast?.bind stepNumber?).map fun n => (names.dropLast, n)

/-- Puts a number into an ascending list, unless it is there. -/
def insertNumber (n : Nat) : List Nat → List Nat
  | [] => [n]
  | m :: r => if n < m then n :: m :: r else if n = m then m :: r else m :: insertNumber n r

/-- The numbers of every directory, ascending. -/
def group (steps : List (List String × Nat)) : Keyed (List String) (List Nat) :=
  steps.foldl (fun t s => t.put s.1 (insertNumber s.2 ((t.get? s.1).getD []))) []

/-- The numbers from `next` on that an ascending list leaves out before its last one. -/
def gaps (next : Nat) : List Nat → List Nat
  | [] => []
  | n :: r => List.range' next (n - next) ++ gaps (max next (n + 1)) r

def caseReport (suiteName : String) (names : List String) (numbers : List Nat) : CaseReport :=
  let missing := gaps 1 numbers
  { path := "/".intercalate names
    steps := numbers.length
    contiguous := missing.isEmpty
    missing
    reserved :=
      names.head? = some (segment suiteName) || names.getLast? = some (segment unknownTest) }

/-- The report on a store; the root must be a directory. -/
def scan (d : Disk) (root : Path) (suiteName : String) : Except Failure StoreReport :=
  if !d.isDir root then .error (.store root.text "store directory does not exist")
  else
    match d.filesBelow root with
    | .error e => .error (.file e)
    | .ok files =>
      let grouped := (group (files.filterMap stepOf?)).mergeSort fun a b => !decide (b.1 < a.1)
      let cases := grouped.map fun (names, numbers) => caseReport suiteName names numbers
      .ok ⟨root.text, cases, cases.foldr (fun c total => c.steps + total) 0⟩

namespace CaseReport

def toJson (c : CaseReport) : Json :=
  .ofMembers
    [ some ("path", .text c.path)
    , some ("steps", .ofNat c.steps)
    , some ("contiguous", .bool c.contiguous)
    , if c.missing.isEmpty then none else some ("missing", .array (c.missing.map Json.ofNat))
    , some ("reserved", .bool c.reserved) ]

def ofJson? (v : Json) : Option CaseReport := do
  let m ← v.fields? ["path", "steps", "contiguous", "missing", "reserved"]
  return {
    path := ← (← m.get? "path").text?
    steps := ← (← m.get? "steps").below? (Nat.pow 2 64)
    contiguous := ← (← m.get? "contiguous").bool?
    missing := ← match m.get? "missing" with
      | none => some []
      | some v => v.array?.bind (·.mapM (Json.below? (Nat.pow 2 64)))
    reserved := ← (← m.get? "reserved").bool? }

/-- The lines that show a case. -/
def lines (c : CaseReport) : List String :=
  let status := if c.contiguous then "ok" else "GAPS"
  let mark := if c.reserved then " (reserved)" else ""
  let line := "  " ++ Text.alignLeft 4 status ++ " " ++ Text.alignRight 5 (toString c.steps) ++ "  "
    ++ c.path ++ mark ++ "\n"
  if c.missing.isEmpty then [line]
  else [line, "         missing: " ++ ",".intercalate (c.missing.map toString) ++ "\n"]

end CaseReport

namespace StoreReport

def toJson (r : StoreReport) : Json :=
  .ofMembers
    [ some ("root", .text r.root)
    , some ("cases", .array (r.cases.map CaseReport.toJson))
    , some ("totalSteps", .ofNat r.totalSteps) ]

def ofJson? (v : Json) : Option StoreReport := do
  let m ← v.fields? ["root", "cases", "totalSteps"]
  return {
    root := ← (← m.get? "root").text?
    cases := ← (← (← m.get? "cases").array?).mapM CaseReport.ofJson?
    totalSteps := ← (← m.get? "totalSteps").below? (Nat.pow 2 64) }

/-- Whether a declared case lacks a step. The reserved cases hold whatever ran outside and are not
looked at. -/
def hasGaps (r : StoreReport) : Bool := r.cases.any fun c => !c.reserved && !c.contiguous

def pretty (r : StoreReport) : String :=
  let head := "store=" ++ r.root ++ " cases=" ++ toString r.cases.length ++ " steps="
    ++ toString r.totalSteps ++ "\n"
  Text.trimEnd (String.join (head :: r.cases.flatMap CaseReport.lines))

end StoreReport
end StepTrace.Store
