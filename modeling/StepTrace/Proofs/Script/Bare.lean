import StepTrace.Script.Node

/-!
Trees that can be written as they are. No parentheses are added when a tree is written, so an expression
has to hold together where it stands, and a statement must not start as another one does. The levels are
those of the grammar of JavaScript. That `in` is no operator in the head of a loop is left out.
-/
namespace StepTrace.Script

/-! ### Levels -/

/-- How tightly a binary operator holds together, between a condition (2) and a prefix operator (15). -/
def BinaryOp.level : BinaryOp → Nat
  | nullish => 3
  | op => op.strength + 3

/-- The level of what stands left of an operator; a power has no prefix operator there. -/
def BinaryOp.leftLevel : BinaryOp → Nat
  | exp => 16
  | op => op.level

def BinaryOp.rightLevel : BinaryOp → Nat
  | exp => 14
  | nullish => 6
  | op => op.level + 1

namespace Expr

def isNullish : Expr → Bool
  | binary _ op _ _ => op = .nullish
  | _ => false

/-- What `new` stands before has no call in its chain, since the arguments would be those of `new`. -/
def isNewable : Expr → Bool
  | member _ _ e _ | index _ _ e _ | tagged _ e .. => e.isNewable
  | call .. | importRef _ => false
  | _ => true

end Expr

/-- What the text of an expression starts with, as far as it decides what a statement is. -/
inductive Opening where
  | brace
  /-- A word that starts a declaration of a function or of a class. -/
  | declaration
  | other
deriving DecidableEq, Repr, Inhabited

mutual

def Expr.opening : Expr → Opening
  | .object .. => .brace
  | .func .. | .classExpr .. => .declaration
  | .tagged _ e .. | .update _ _ false e | .binary _ _ e _ | .cond _ e .. | .member _ _ e _
  | .index _ _ e _ | .call _ _ e _ | .ascribed _ _ e => e.opening
  | .assign _ _ q _ => q.opening
  | .sequence _ items => Expr.openingOf items
  | .this _ | .superRef _ | .importRef _ | .ident _ | .literal .. | .template .. | .array .. | .arrow ..
  | .unary .. | .update _ _ true _ | .construct .. | .paren .. | .await .. | .yield ..
  | .metaProperty .. | .spread .. | .elision | .element .. => .other

/-- What the first of some expressions starts with. -/
def Expr.openingOf : List Expr → Opening
  | [] => .other
  | e :: _ => e.opening

def Pat.opening : Pat → Opening
  | .object .. => .brace
  | .withDefault _ q _ => q.opening
  | .expr e => e.opening
  | .ident _ | .elision | .array .. | .rest .. => .other

end

mutual

/-- A statement that ends with a condition without a second branch: an `else` after it would be read as
that branch. -/
def Stmt.isOpen : Stmt → Bool
  | .ifElse _ _ _ no => Stmt.isOpen? no
  | .withObject _ _ s | .labeled _ _ s | .whileLoop _ _ s | .forLoop _ _ _ _ s | .forIn _ _ _ s
  | .forOf _ _ _ _ s => s.isOpen
  | .block _ | .empty _ | .debugger _ | .returnStmt .. | .breakTo .. | .continueTo .. | .switchOn ..
  | .throwStmt .. | .tryStmt .. | .doWhileLoop .. | .varDecl _ | .func .. | .classDecl .. | .expr ..
  | .importNames .. | .exportDecl .. | .exportNames .. | .exportAll .. | .exportDefault ..
  | .exportDefaultFunc .. | .exportDefaultClass .. | .typed _ => false

def Stmt.isOpen? : Option Stmt → Bool
  | none => true
  | some s => s.isOpen

end

/-! ### Trees without missing parentheses -/

mutual

/-- The text of an expression is read as that expression where one of level `n` is expected: a sequence
where 0 is, what may be assigned where 1 is, and so on up to a member where 18 is. -/
def Expr.isBare (n : Nat) : Expr → Bool
  | .sequence _ items => n == 0 && Expr.areBare 1 items
  | .assign _ _ q e => decide (n ≤ 1) && q.isBare && e.isBare 1
  | .arrow _ _ ps b => decide (n ≤ 1) && Pat.areBare ps && b.isBare
  | .yield _ _ e => decide (n ≤ 1) && Expr.isBare? 1 e
  | .spread _ e => decide (n ≤ 1) && e.isBare 1
  | .elision => decide (n ≤ 1)
  | .cond _ a b c => decide (n ≤ 2) && a.isBare 3 && b.isBare 1 && c.isBare 1
  | .binary _ op l r =>
    decide (n ≤ op.level) && l.isBare (if op = .nullish ∧ !l.isNullish then 6 else op.leftLevel) &&
      r.isBare op.rightLevel
  | .unary _ _ e | .await _ e => decide (n ≤ 15) && e.isBare 15
  | .update _ _ _ e => decide (n ≤ 16) && e.isBare 17
  | .construct _ e hasArgs args =>
    decide (n ≤ if hasArgs then 18 else 17) && e.isNewable &&
      e.isBare (if hasArgs then 18 else 17) && Expr.areBare 1 args
  | .member _ l e _ => (l != .plain || !e.isChain) && e.isBare 18
  | .index _ l e k => (l != .plain || !e.isChain) && e.isBare 18 && k.isBare 0
  | .call _ l e args => (l != .plain || !e.isChain) && e.isBare 18 && Expr.areBare 1 args
  | .tagged _ tag _ parts => !tag.isChain && tag.isBare 18 && Expr.areBare 0 parts
  | .template _ _ parts => Expr.areBare 0 parts
  | .array _ items => Expr.areBare 1 items
  | .object _ members => Property.areBare members
  | .func _ f => f.isBare
  | .classExpr _ c => c.isBare
  | .paren _ e => e.isBare 0
  | .element _ _ _ as_ cs => JsxPart.areBare as_ && JsxPart.areBare cs
  | .ascribed .. => false
  | .this _ | .superRef _ | .importRef _ | .ident _ | .literal .. | .metaProperty .. => true

def Expr.areBare (n : Nat) : List Expr → Bool
  | [] => true
  | e :: r => e.isBare n && Expr.areBare n r

def Expr.isBare? (n : Nat) : Option Expr → Bool
  | none => true
  | some e => e.isBare n

def JsxPart.isBare : JsxPart → Bool
  | .attribute _ none | .text _ => true
  | .attribute _ (some v) => v.isBare
  | .spread e => e.isBare 1
  | .child e => e.isBare 18
  | .container e => Expr.isBare? 0 e

def JsxPart.areBare : List JsxPart → Bool
  | [] => true
  | p :: r => p.isBare && JsxPart.areBare r

def Property.isBare : Property → Bool
  | .shorthand _ e => Expr.isBare? 1 e
  | .keyValue k e => k.isBare && e.isBare 1
  | .method k f => k.isBare && f.isBare
  | .getter _ k b => k.isBare && b.isBare
  | .setter _ k q b => k.isBare && q.isBare && b.isBare
  | .spread _ e => e.isBare 1

def Property.areBare : List Property → Bool
  | [] => true
  | p :: r => p.isBare && Property.areBare r

def Key.isBare : Key → Bool
  | .computed _ e => e.isBare 1
  | .name _ | .literal .. => true

def Pat.isBare : Pat → Bool
  | .ident _ | .elision => true
  | .array _ items => Pat.areBare items
  | .object _ members => PatProperty.areBare members
  | .rest _ q => q.isBare
  | .withDefault _ q e => q.isBare && e.isBare 1
  | .expr e => e.isBare 17

def Pat.areBare : List Pat → Bool
  | [] => true
  | q :: r => q.isBare && Pat.areBare r

def Pat.isBare? : Option Pat → Bool
  | none => true
  | some q => q.isBare

def PatProperty.isBare : PatProperty → Bool
  | .keyValue k q => k.isBare && q.isBare
  | .shorthand _ _ e => Expr.isBare? 1 e
  | .rest _ q => q.isBare

def PatProperty.areBare : List PatProperty → Bool
  | [] => true
  | p :: r => p.isBare && PatProperty.areBare r

def Function.isBare : Function → Bool
  | .mk _ _ _ ds ps b => Expr.areBare 17 ds && Param.areBare ps && Block.isBare? b

def Param.isBare : Param → Bool
  | .mk _ ds _ q => Expr.areBare 17 ds && q.isBare

def Param.areBare : List Param → Bool
  | [] => true
  | p :: r => p.isBare && Param.areBare r

/-- A value that starts with a brace would be read as a body. -/
def ArrowBody.isBare : ArrowBody → Bool
  | .block b => b.isBare
  | .expr e => decide (e.opening ≠ .brace) && e.isBare 1

def Block.isBare : Block → Bool
  | .mk _ ss => Stmt.areBare ss

def Block.isBare? : Option Block → Bool
  | none => true
  | some b => b.isBare

def Class.isBare : Class → Bool
  | .mk _ ds members parent =>
    Expr.areBare 17 ds && ClassMember.areBare members && Expr.isBare? 17 parent

def ClassMember.isBare : ClassMember → Bool
  | .ctor _ k ps b => k.isBare && Param.areBare ps && Block.isBare? b
  | .method _ k _ _ _ f => k.isBare && f.isBare
  | .property _ k _ _ _ v ds => k.isBare && Expr.isBare? 1 v && Expr.areBare 17 ds
  | .staticBlock _ b => b.isBare
  | .empty _ => true

def ClassMember.areBare : List ClassMember → Bool
  | [] => true
  | m :: r => m.isBare && ClassMember.areBare r

/-- An expression is a statement unless it starts as a block or a declaration does. -/
def Stmt.isBare : Stmt → Bool
  | .expr _ e => decide (e.opening = .other) && e.isBare 0
  | .block b => b.isBare
  | .withObject _ e s | .whileLoop _ e s | .doWhileLoop _ e s => e.isBare 0 && s.isBare
  | .returnStmt _ e => Expr.isBare? 0 e
  | .labeled _ _ s | .exportDecl _ s => s.isBare
  | .ifElse _ e yes no =>
    (no.isNone || !yes.isOpen) && e.isBare 0 && yes.isBare && Stmt.isBare? no
  | .switchOn _ e cases => e.isBare 0 && SwitchCase.areBare cases
  | .throwStmt _ e => e.isBare 0
  | .tryStmt _ b c f => b.isBare && Catch.isBare? c && Block.isBare? f
  | .forLoop _ h test update s =>
    h.isBare && Expr.isBare? 0 test && Expr.isBare? 0 update && s.isBare
  | .forIn _ h e s => h.isBare && e.isBare 0 && s.isBare
  | .forOf _ _ h e s => h.isBare && e.isBare 1 && s.isBare
  | .varDecl d => d.isBare
  | .func _ f | .exportDefaultFunc _ _ f => f.isBare
  | .classDecl _ c | .exportDefaultClass _ _ c => c.isBare
  | .exportDefault _ e => decide (e.opening ≠ .declaration) && e.isBare 1
  | .typed _ => false
  | .empty _ | .debugger _ | .breakTo .. | .continueTo .. | .importNames .. | .exportNames ..
  | .exportAll .. => true

def Stmt.isBare? : Option Stmt → Bool
  | none => true
  | some s => s.isBare

def Stmt.areBare : List Stmt → Bool
  | [] => true
  | s :: r => s.isBare && Stmt.areBare r

def VarDecl.isBare : VarDecl → Bool
  | .mk _ _ _ items => Declarator.areBare items

def Declarator.isBare : Declarator → Bool
  | .mk _ q e => q.isBare && Expr.isBare? 1 e

def Declarator.areBare : List Declarator → Bool
  | [] => true
  | d :: r => d.isBare && Declarator.areBare r

def SwitchCase.isBare : SwitchCase → Bool
  | .mk _ e ss => Expr.isBare? 0 e && Stmt.areBare ss

def SwitchCase.areBare : List SwitchCase → Bool
  | [] => true
  | c :: r => c.isBare && SwitchCase.areBare r

def Catch.isBare : Catch → Bool
  | .mk _ q b => Pat.isBare? q && b.isBare

def Catch.isBare? : Option Catch → Bool
  | none => true
  | some c => c.isBare

def LoopHead.isBare : LoopHead → Bool
  | .none => true
  | .varDecl d => d.isBare
  | .pat q => q.isBare
  | .expr e => e.isBare 0

end

/-- A program that can be written as it is. -/
def Program.isBare (p : Program) : Bool := Stmt.areBare p.body

end StepTrace.Script
