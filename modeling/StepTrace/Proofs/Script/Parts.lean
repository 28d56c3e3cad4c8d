import Mathlib.Tactic.TermCongr
import StepTrace.Script.Probe

/-!
The parts of a program that hold statements, at every depth and in the order of the text: lists of statements,
functions with their bodies, and statements that stand alone, as the body of a loop does without braces.
Declarations of TypeScript are not looked into: they are gone before a program is brought to normal form.
-/
namespace StepTrace.Script

/-! ### Names that parameters bind -/

mutual

/-- The places where a pattern binds a name. The value of a default binds nothing. -/
def Pat.binders : Pat → List Ident
  | .ident n => [n]
  | .elision | .expr _ => []
  | .array _ items => Pat.bindersOf items
  | .object _ members => PatProperty.bindersOf members
  | .rest _ q | .withDefault _ q _ => q.binders

def Pat.bindersOf : List Pat → List Ident
  | [] => []
  | q :: r => q.binders ++ Pat.bindersOf r

def PatProperty.binders : PatProperty → List Ident
  | .keyValue _ q | .rest _ q => q.binders
  | .shorthand _ n _ => [n]

def PatProperty.bindersOf : List PatProperty → List Ident
  | [] => []
  | p :: r => p.binders ++ PatProperty.bindersOf r

end

/-- The names that parameters bind, without the name of all arguments. -/
def Pat.parameterNames (qs : List Pat) : List String :=
  ((Pat.bindersOf qs).map Ident.text).filter (· ≠ argumentsName)

theorem filter_binder (n : Ident) :
    ([n].map Ident.text).filter (· ≠ argumentsName) = if n.text = argumentsName then [] else [n.text] := by
  by_cases h : n.text = argumentsName <;> simp [h]

theorem filter_binders_append (a b : List Ident) :
    ((a ++ b).map Ident.text).filter (· ≠ argumentsName) =
      (a.map Ident.text).filter (· ≠ argumentsName) ++ (b.map Ident.text).filter (· ≠ argumentsName) := by
  rw [List.map_append, List.filter_append]

mutual

theorem Pat.boundNames_eq (q : Pat) :
    q.boundNames = (q.binders.map Ident.text).filter (· ≠ argumentsName) := by
  cases q with
  | ident n => exact (filter_binder n).symm
  | elision | expr => rfl
  | array p items => exact Pat.boundNamesOf_eq items
  | object p members => exact PatProperty.boundNamesOf_eq members
  | rest p q | withDefault p q e => exact Pat.boundNames_eq q

theorem Pat.boundNamesOf_eq (qs : List Pat) : Pat.boundNamesOf qs = Pat.parameterNames qs := by
  cases qs with
  | nil => rfl
  | cons q r =>
    exact congr($(Pat.boundNames_eq q) ++ $(Pat.boundNamesOf_eq r)).trans
      (filter_binders_append q.binders (Pat.bindersOf r)).symm

theorem PatProperty.boundNames_eq (p : PatProperty) :
    p.boundNames = (p.binders.map Ident.text).filter (· ≠ argumentsName) := by
  cases p with
  | keyValue k q | rest p q => exact Pat.boundNames_eq q
  | shorthand p n e => exact (filter_binder n).symm

theorem PatProperty.boundNamesOf_eq (ps : List PatProperty) :
    PatProperty.boundNamesOf ps =
      ((PatProperty.bindersOf ps).map Ident.text).filter (· ≠ argumentsName) := by
  cases ps with
  | nil => rfl
  | cons p r =>
    exact congr($(PatProperty.boundNames_eq p) ++ $(PatProperty.boundNamesOf_eq r)).trans
      (filter_binders_append p.binders (PatProperty.bindersOf r)).symm

end

/-! ### Kinds of parts -/

/-- Where a statement stands that is no member of a list. -/
inductive Slot where
  /-- The body of a loop or of `with`, or what a condition holds for. -/
  | body
  /-- After `else`. -/
  | branch
  /-- After a label. -/
  | label
deriving DecidableEq, Repr

/-- A function, method, constructor, accessor or arrow function that has a body; `isProperty` for an accessor
of an object literal. -/
structure Callable where
  place : Place
  isProperty : Bool
  names : List String
  body : ArrowBody

inductive Part where
  /-- The statements of a block that is not the body of a function, or of a clause of a `switch`. -/
  | list (ss : List Stmt)
  | callable (f : Callable)
  | alone (slot : Slot) (s : Stmt)

/-! ### The parts of a program -/

/-- A statement that nobody wrote and that gives the value of a variable. -/
def Stmt.returnsName : Stmt → Bool
  | .returnStmt none (some (.ident _)) => true
  | _ => false

/-- A body that nobody wrote and that only gives the value of a variable. -/
def Block.returnsName : Block → Bool
  | .mk _ [] => false
  | .mk p (s :: r) => s.returnsName && r.isEmpty && p.isNone

/-- The getter of an object literal, unless it is one of those by which a probe reads variables. -/
def Block.getterPart? (p : Place) (b : Block) : Option Part :=
  if p = none ∧ b.returnsName then none else some (.callable ⟨p, true, [], .block b⟩)

mutual

def Expr.parts : Expr → List Part
  | .template _ _ parts => Expr.partsOf parts
  | .tagged _ tag _ parts => tag.parts ++ Expr.partsOf parts
  | .array _ items | .sequence _ items => Expr.partsOf items
  | .object _ members => Property.partsOf members
  | .func _ f => f.parts
  | .classExpr _ c => c.parts
  | .arrow p _ ps b => Pat.partsOf ps ++ b.parts p (Pat.parameterNames ps)
  | .unary _ _ e | .update _ _ _ e | .member _ _ e _ | .paren _ e | .await _ e | .spread _ e
  | .ascribed _ _ e => e.parts
  | .binary _ _ l r | .index _ _ l r => l.parts ++ r.parts
  | .assign _ _ q e => q.parts ++ e.parts
  | .cond _ a b c => a.parts ++ (b.parts ++ c.parts)
  | .call _ _ e args | .construct _ e _ args => e.parts ++ Expr.partsOf args
  | .yield _ _ e => Expr.parts? e
  | .element _ _ _ as_ cs => JsxPart.partsOf as_ ++ JsxPart.partsOf cs
  | .this _ | .superRef _ | .importRef _ | .ident _ | .literal .. | .metaProperty .. | .elision => []

def Expr.partsOf : List Expr → List Part
  | [] => []
  | e :: r => e.parts ++ Expr.partsOf r

def Expr.parts? : Option Expr → List Part
  | none => []
  | some e => e.parts

def JsxPart.parts : JsxPart → List Part
  | .attribute _ none | .text _ => []
  | .attribute _ (some v) => v.parts
  | .spread e | .child e => e.parts
  | .container e => Expr.parts? e

def JsxPart.partsOf : List JsxPart → List Part
  | [] => []
  | p :: r => p.parts ++ JsxPart.partsOf r

def Property.parts : Property → List Part
  | .shorthand _ e => Expr.parts? e
  | .keyValue k e => k.parts ++ e.parts
  | .method k f => k.parts ++ f.parts
  | .getter p k b => k.parts ++ ((b.getterPart? p).toList ++ b.inner)
  | .setter p k q b =>
    k.parts ++ (q.parts ++ .callable ⟨p, true, Pat.parameterNames [q], .block b⟩ :: b.inner)
  | .spread _ e => e.parts

def Property.partsOf : List Property → List Part
  | [] => []
  | p :: r => p.parts ++ Property.partsOf r

def Key.parts : Key → List Part
  | .computed _ e => e.parts
  | .name _ | .literal .. => []

def Pat.parts : Pat → List Part
  | .ident _ | .elision => []
  | .array _ items => Pat.partsOf items
  | .object _ members => PatProperty.partsOf members
  | .rest _ q => q.parts
  | .withDefault _ q e => q.parts ++ e.parts
  | .expr e => e.parts

def Pat.partsOf : List Pat → List Part
  | [] => []
  | q :: r => q.parts ++ Pat.partsOf r

def Pat.parts? : Option Pat → List Part
  | none => []
  | some q => q.parts

def PatProperty.parts : PatProperty → List Part
  | .keyValue k q => k.parts ++ q.parts
  | .shorthand _ _ e => Expr.parts? e
  | .rest _ q => q.parts

def PatProperty.partsOf : List PatProperty → List Part
  | [] => []
  | p :: r => p.parts ++ PatProperty.partsOf r

def Function.parts : Function → List Part
  | .mk p _ _ ds ps b =>
    Expr.partsOf ds ++
      (Param.partsOf ps ++ Block.bodyParts? p (Pat.parameterNames (ps.map Param.pat)) b)

/-- The body of a function that was read at a place; a signature has none. -/
def Block.bodyParts? (p : Place) (names : List String) : Option Block → List Part
  | none => []
  | some b => .callable ⟨p, false, names, .block b⟩ :: b.inner

def Param.parts : Param → List Part
  | .mk _ ds _ q => Expr.partsOf ds ++ q.parts

def Param.partsOf : List Param → List Part
  | [] => []
  | p :: r => p.parts ++ Param.partsOf r

def ArrowBody.parts (p : Place) (names : List String) : ArrowBody → List Part
  | .block b => .callable ⟨p, false, names, .block b⟩ :: b.inner
  | .expr e => .callable ⟨p, false, names, .expr e⟩ :: e.parts

def Block.parts : Block → List Part
  | .mk _ ss => .list ss :: Stmt.partsOf ss

/-- The parts of the statements of a block. -/
def Block.inner : Block → List Part
  | .mk _ ss => Stmt.partsOf ss

def Block.parts? : Option Block → List Part
  | none => []
  | some b => b.parts

def Class.parts : Class → List Part
  | .mk _ ds members parent => Expr.partsOf ds ++ (ClassMember.partsOf members ++ Expr.parts? parent)

def ClassMember.parts : ClassMember → List Part
  | .ctor p _ ps b =>
    Param.partsOf ps ++ Block.bodyParts? p (Pat.parameterNames (ps.map Param.pat)) b
  | .method _ k _ _ _ f => k.parts ++ f.parts
  | .property _ k _ _ _ v ds => k.parts ++ (Expr.parts? v ++ Expr.partsOf ds)
  | .staticBlock _ b => b.parts
  | .empty _ => []

def ClassMember.partsOf : List ClassMember → List Part
  | [] => []
  | m :: r => m.parts ++ ClassMember.partsOf r

/-- An exported declaration is a member of the list that its export stands in. -/
def Stmt.parts : Stmt → List Part
  | .block b => b.parts
  | .withObject _ e s | .whileLoop _ e s | .doWhileLoop _ e s => e.parts ++ .alone .body s :: s.parts
  | .returnStmt _ e => Expr.parts? e
  | .labeled _ _ s => .alone .label s :: s.parts
  | .ifElse _ e yes no => e.parts ++ (.alone .body yes :: yes.parts ++ Stmt.branchParts? no)
  | .switchOn _ e cases => e.parts ++ SwitchCase.partsOf cases
  | .throwStmt _ e | .expr _ e | .exportDefault _ e => e.parts
  | .tryStmt _ b c f => b.parts ++ (Catch.parts? c ++ Block.parts? f)
  | .forLoop _ h test update s =>
    h.parts ++ (Expr.parts? test ++ (Expr.parts? update ++ .alone .body s :: s.parts))
  | .forIn _ h e s | .forOf _ _ h e s => h.parts ++ (e.parts ++ .alone .body s :: s.parts)
  | .varDecl d => d.parts
  | .func _ f | .exportDefaultFunc _ _ f => f.parts
  | .classDecl _ c | .exportDefaultClass _ _ c => c.parts
  | .exportDecl _ d => d.parts
  | .empty _ | .debugger _ | .breakTo .. | .continueTo .. | .importNames .. | .exportNames ..
  | .exportAll .. | .typed _ => []

def Stmt.branchParts? : Option Stmt → List Part
  | none => []
  | some s => .alone .branch s :: s.parts

def Stmt.partsOf : List Stmt → List Part
  | [] => []
  | s :: r => s.parts ++ Stmt.partsOf r

def VarDecl.parts : VarDecl → List Part
  | .mk _ _ _ items => Declarator.partsOf items

def Declarator.parts : Declarator → List Part
  | .mk _ q e => q.parts ++ Expr.parts? e

def Declarator.partsOf : List Declarator → List Part
  | [] => []
  | d :: r => d.parts ++ Declarator.partsOf r

def SwitchCase.parts : SwitchCase → List Part
  | .mk _ e ss => Expr.parts? e ++ .list ss :: Stmt.partsOf ss

def SwitchCase.partsOf : List SwitchCase → List Part
  | [] => []
  | c :: r => c.parts ++ SwitchCase.partsOf r

def Catch.parts : Catch → List Part
  | .mk _ q b => Pat.parts? q ++ b.parts

def Catch.parts? : Option Catch → List Part
  | none => []
  | some c => c.parts

def LoopHead.parts : LoopHead → List Part
  | .none => []
  | .varDecl d => d.parts
  | .pat q => q.parts
  | .expr e => e.parts

end

/-- The parts of a program, at every depth. -/
def Program.parts (p : Program) : List Part := Stmt.partsOf p.body

theorem Stmt.partsOf_eq_flatMap (ss : List Stmt) : Stmt.partsOf ss = ss.flatMap Stmt.parts := by
  induction ss with
  | nil => rfl
  | cons s r ih => exact congr(s.parts ++ $ih)

theorem Stmt.partsOf_append (a b : List Stmt) :
    Stmt.partsOf (a ++ b) = Stmt.partsOf a ++ Stmt.partsOf b := by
  induction a with
  | nil => rfl
  | cons s r ih => exact congr(s.parts ++ $ih).trans (List.append_assoc ..).symm

end StepTrace.Script
