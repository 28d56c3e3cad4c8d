import StepTrace.Script.Scan.Literal
import StepTrace.Script.Typed.Enumeration
import StepTrace.Script.Typed.Imports

/-!
What the names around a part of a typed program stand for: a variable, an enumeration with the values of
its members, or a member of a namespace. The enumerations of a list of statements are known in the whole
list; one that is the body of a statement is known from there on.
-/
namespace StepTrace.Script

/-- What a name stands for. -/
inductive Meaning where
  | plain
  /-- An enumeration. -/
  | members (values : EnumValues)
  /-- What a namespace gives out is a member of it. -/
  | memberOf (space : String)

/-- The enumeration that a statement defines. -/
def Stmt.enumeration? : Stmt → Option (Ident × List EnumMember)
  | .typed (.enumeration _ false _ n members)
  | .exportDecl _ (.typed (.enumeration _ false _ n members)) => some (n, members)
  | _ => none

/-- Names with what they stand for, the innermost first. -/
abbrev Meanings := List (String × Meaning)

namespace Meanings

def meaning (ms : Meanings) (name : String) : Meaning := (ms.lookup name).getD .plain

/-- The members of an enumeration with a name. -/
def enumValues (ms : Meanings) (name : String) : EnumValues :=
  match ms.meaning name with
  | .members vs => vs
  | _ => []

/-- What is known before the first member of an enumeration. -/
def scope (ms : Meanings) (name : String) (members : List EnumMember) : EnumScope where
  name := name
  members := EnumMember.readable members
  own := ms.enumValues name
  others := ms.enumValues
  isDeclared := fun n => (ms.lookup n).isSome

/-- An enumeration adds its members to those of an earlier one with the same name. -/
def addMembers (ms : Meanings) (name : String) (new : EnumValues) : Meanings :=
  (name, .members (new.reverse ++ ms.enumValues name)) :: ms

/-- The latest members come first. -/
@[simp] theorem enumValues_addMembers (ms : Meanings) (name : String) (new : EnumValues) :
    (ms.addMembers name new).enumValues name = new.reverse ++ ms.enumValues name := by
  simp [addMembers, enumValues, meaning]

/-- Other enumerations keep theirs. -/
theorem enumValues_addMembers_of_ne (ms : Meanings) {name other : String} (new : EnumValues)
    (h : other ≠ name) : (ms.addMembers name new).enumValues other = ms.enumValues other := by
  simp [addMembers, enumValues, meaning, List.lookup_cons, beq_eq_false_iff_ne.2 h]

def declareEnum (ms : Meanings) (s : Stmt) : Meanings :=
  match s.enumeration? with
  | some (n, members) => ms.addMembers n.text ((ms.scope n.text members).values (.number 0) members)
  | none => ms

/-- What names stand for after a statement, in which enumerations may be bodies of statements. -/
def after (ms : Meanings) : Stmt → Meanings
  | .withObject _ _ s | .labeled _ _ s | .whileLoop _ _ s | .doWhileLoop _ _ s => after ms s
  | .ifElse _ _ yes none => after ms yes
  | .ifElse _ _ yes (some no) => after (after ms yes) no
  | s => ms.declareEnum s

end Meanings

/-- Where a part of a program stands. -/
structure Surroundings where
  meanings : Meanings := []
  /-- What names stood for before the statement at hand, as far as the list around it tells. -/
  passed : Meanings := []
  /-- Enumerations whose members are named alone here. -/
  enclosing : List (String × List String) := []
  /-- Inside of what is assigned to, no constant takes the place of a member. -/
  isTarget : Bool := false
  /-- The list of statements is that of the program. -/
  isTop : Bool := false
  /-- The namespace that the list of statements is the body of. -/
  space : Option String := none
  /-- Names that the module gives out by a list. -/
  listed : List String := []
  dropsEmpty : Bool := false
  /-- What follows a call of the constructor of the parent class. -/
  afterSuper : List Expr := []
  /-- The value of the expression is not needed. -/
  discards : Bool := false

namespace Surroundings

def meaning (w : Surroundings) (name : String) : Meaning := w.meanings.meaning name

def mean (w : Surroundings) (name : String) (m : Meaning) : Surroundings :=
  { w with meanings := (name, m) :: w.meanings }

def declare (w : Surroundings) (names : List String) : Surroundings :=
  { w with meanings := names.map (·, .plain) ++ w.meanings }

/-- What a namespace gives out. -/
def declareGiven (w : Surroundings) (space : String) : Stmt → Surroundings
  | .exportDecl _ (.varDecl d) =>
    if d.isDeclare then w else d.boundNames.foldl (fun w n => w.mean n (.memberOf space)) w
  | .typed (.importEquals _ true _ n _) => w.mean n.text (.memberOf space)
  | _ => w

/-- Declarations that become functions that fill an object. -/
def isFilled : Stmt → Bool
  | .typed (.enumeration _ isDeclare ..) | .exportDecl _ (.typed (.enumeration _ isDeclare ..)) =>
    !isDeclare
  | .typed (.namespace _ isDeclare _ stmts) | .exportDecl _ (.typed (.namespace _ isDeclare _ stmts)) =>
    !isDeclare && Stmt.anyLeft stmts
  | _ => false

/-- Inside a list of statements, of which the names are declared. -/
def among (w : Surroundings) (stmts : List Stmt) : Surroundings :=
  { w with
    passed := w.meanings, meanings := stmts.foldl Meanings.declareEnum w.meanings
    isTop := false, space := none, discards := false, dropsEmpty := stmts.any isFilled }

/-- Inside a list of statements with names of its own beside those that the list declares. -/
def inList (w : Surroundings) (names : List String) (stmts : List Stmt) : Surroundings :=
  (w.declare (names ++ Stmt.declaredNamesOf stmts)).among stmts

/-- After a member of a list of statements; `new` are its members if it is an enumeration. -/
def past (w : Surroundings) (s : Stmt) (new : EnumValues) : Surroundings :=
  match s.enumeration? with
  | some (n, _) => { w with passed := w.passed.addMembers n.text new }
  | none => { w with passed := w.passed.after s, meanings := w.meanings.after s }

/-- Inside the body of a namespace. -/
def inSpace (w : Surroundings) (path : List Ident) (stmts : List Stmt) : Surroundings :=
  let space := (path.getLast?.map Ident.text).getD ""
  let w := w.inList (path.map Ident.text ++ Stmt.varNamesOf stmts) stmts
  { stmts.foldl (declareGiven · space) w with
    space := some space, dropsEmpty := true, afterSuper := [] }

/-- Inside a function or a class, where no constructor of a parent class can be called. -/
def aside (w : Surroundings) : Surroundings := { w with afterSuper := [] }

/-- Inside an expression. -/
def within (w : Surroundings) : Surroundings := { w with discards := false }

/-- Inside a statement that is the body of another. -/
def inBody (w : Surroundings) (s : Stmt) : Surroundings :=
  { w with dropsEmpty := false, passed := w.meanings, meanings := w.meanings.declareEnum s }

/-- Inside the value of a member of an enumeration, where the members so far are named alone. -/
def inMembers (w : Surroundings) (s : EnumScope) : Surroundings :=
  let w := w.declare (s.members.filter (· != s.name))
  { w with enclosing := (s.name, s.own.map Prod.fst) :: w.enclosing, discards := false }

def asValue (w : Surroundings) : Surroundings := { w with discards := false, isTarget := false }

def asTarget (w : Surroundings) : Surroundings := { w with discards := false, isTarget := true }

def discarding (w : Surroundings) : Surroundings := { w with discards := true }

def pattern (w : Surroundings) (n : Ident) : Pat :=
  match w.meaning n.text with
  | .memberOf space => .expr (.property space n.text)
  | _ => .ident n

def shorthand (w : Surroundings) (n : Ident) (init : Option Expr) : Property :=
  match w.meaning n.text, init with
  | .memberOf space, none => .keyValue (.name n) (.property space n.text)
  | _, init => .shorthand n init

def jsxName (w : Surroundings) (name : JsxName) : JsxName :=
  match name with
  | .simple n =>
    match w.meaning n.text with
    | .memberOf space => if name.uses.isEmpty then name else .member ⟨none, space⟩ [n.text]
    | _ => name
  | .member h path =>
    match w.meaning h.text with
    | .memberOf space => .member ⟨none, space⟩ (h.text :: path)
    | _ => name
  | name => name

/-- The constant that a member of an expression stands for. -/
def constant? (w : Surroundings) (link : Link) (obj : Expr) (name : Option String) : Option Expr :=
  match obj.withoutAscriptions, name with
  | .ident n, some name =>
    if w.isTarget || link != .plain then none
    else
      match (w.meanings.enumValues n.text).lookup name with
      | some v => if v.isConstant then some v.toExpr else none
      | none => none
  | _, _ => none

/-- A name that is read. -/
def reference (w : Surroundings) (n : Ident) : Expr :=
  match w.enclosing.find? fun e => e.2.contains n.text with
  | some (enum, _) => (w.constant? .plain (.ofName enum) (some n.text)).getD (.property enum n.text)
  | none =>
    match w.meaning n.text with
    | .memberOf space => .property space n.text
    | _ => .ident n

/-- A name and members of it. -/
def path (w : Surroundings) : List Ident → Expr
  | [] => .elision
  | [h] => w.reference h
  | h :: n :: r =>
    let e := (w.constant? .plain (.ident h) (some n.text)).getD (.member none .plain (w.reference h) n)
    r.foldl (fun e n => .member none .plain e n) e

/-- A call of the constructor of the parent class with what follows it. The value is kept if needed. -/
def afterCall (w : Surroundings) (call : Expr) : Expr :=
  if w.afterSuper.isEmpty then call
  else if w.discards then .sequence none (call :: w.afterSuper)
  else .index none .plain (.array none (call :: w.afterSuper)) (.literal none (.number "0"))

end Surroundings

/-- The name by which an index reads a member, if it is written out. -/
def Expr.memberName? (e : Expr) : Option String :=
  match e.withoutAscriptions with
  | .literal _ (.string v _) => some v
  | .template _ [chunk] [] => Scan.cooked? chunk
  | _ => none

end StepTrace.Script
