import StepTrace.Script.Tree

/-!
Parts of the nodes of a syntax tree: where a node was read, and what it is made of. The words for the
phases of an import stand here too, since reading and printing both need them.
-/
namespace StepTrace.Script

namespace Function

def place : Function → Place
  | mk p .. => p

def isAsync : Function → Bool
  | mk _ b .. => b

def isGenerator : Function → Bool
  | mk _ _ b .. => b

def params : Function → List Param
  | mk _ _ _ _ ps _ => ps

def decorators : Function → List Expr
  | mk _ _ _ ds .. => ds

def body : Function → Option Block
  | mk _ _ _ _ _ b => b

end Function

namespace Param

def pat : Param → Pat
  | mk _ _ _ q => q

end Param

namespace Block

def place : Block → Place
  | mk p _ => p

def stmts : Block → List Stmt
  | mk _ ss => ss

end Block

namespace Class

def place : Class → Place
  | mk p .. => p

end Class

namespace Declarator

def target : Declarator → Pat
  | mk _ q _ => q

end Declarator

namespace VarDecl

def place : VarDecl → Place
  | mk p .. => p

def kind : VarDecl → VarKind
  | mk _ k .. => k

def isDeclare : VarDecl → Bool
  | mk _ _ b _ => b

def items : VarDecl → List Declarator
  | mk _ _ _ ds => ds

end VarDecl

namespace Expr

/-- Where an expression was read. -/
def place : Expr → Place
  | this p | superRef p | importRef p | literal p _ | template p .. | tagged p .. | array p _
  | object p _ | arrow p .. | unary p .. | update p .. | binary p .. | assign p .. | cond p ..
  | member p .. | index p .. | call p .. | construct p .. | sequence p _ | paren p _ | await p _
  | yield p .. | metaProperty p _ | spread p _ | element p .. | ascribed p .. => p
  | ident n => n.place
  | func _ (.mk p ..) => p
  | classExpr _ (.mk p ..) => p
  | elision => none

/-- Where an expression starts. -/
def start (e : Expr) : Nat := e.place.start

def stop (e : Expr) : Nat := e.place.stop

/-- What stands for an expression after a fault that did not stop the reading. -/
def missing (offset : Nat) : Expr := .ident ⟨some ⟨offset, offset⟩, ""⟩

def isArrow : Expr → Bool
  | arrow .. => true
  | _ => false

def isIdentOf (w : String) : Expr → Bool
  | ident n => n.text == w
  | _ => false

/-- The expression without the marks that say it is not null. -/
def withoutNonNull : Expr → Expr
  | ascribed _ .nonNull e => e.withoutNonNull
  | e => e

/-- The expression without what only tells its type. -/
def withoutAscriptions : Expr → Expr
  | ascribed _ _ e => e.withoutAscriptions
  | e => e

/-- What a prefix operator or parentheses apply to. -/
def operand : Expr → Expr
  | unary _ _ e | paren _ e => e
  | e => e

def leftOperand : Expr → Expr
  | binary _ _ e _ => e
  | e => e

def rightOperand : Expr → Expr
  | binary _ _ _ e => e
  | e => e

/-- A name that nobody wrote. -/
def ofName (name : String) : Expr := .ident ⟨none, name⟩

/-- A member of what a name stands for. -/
def property (obj name : String) : Expr := .member none .plain (.ofName obj) ⟨none, name⟩

/-- The expression without parentheses around it. -/
def withoutParens : Expr → Expr
  | paren _ e => e.withoutParens
  | e => e

/-- What a call of `import` starts with: the word, perhaps with a phase. -/
def isImport : Expr → Bool
  | importRef _ | member _ _ (importRef _) _ => true
  | _ => false

/-- The last link is optional. -/
def isOptional : Expr → Bool
  | member _ l .. | index _ l .. | call _ l .. => l == .optional
  | _ => false

/-- A chain of links of which one is optional. -/
def isChain : Expr → Bool
  | member _ l .. | index _ l .. | call _ l .. => l != .plain
  | _ => false

end Expr

namespace Pat

def place : Pat → Place
  | ident n => n.place
  | elision => none
  | array p _ | object p _ | rest p _ | withDefault p .. => p
  | expr e => e.place

def start (p : Pat) : Nat := p.place.start

/-- What stands for a pattern after a fault that did not stop the reading. -/
def missing (offset : Nat) : Pat := .ident ⟨some ⟨offset, offset⟩, ""⟩

/-- The pattern stands for one that could not be read. -/
def isMissing : Pat → Bool
  | ident n => n.text.isEmpty
  | _ => false

/-- Parameters are simple if they are only names. -/
def isIdent : Pat → Bool
  | ident _ => true
  | _ => false

end Pat

namespace ImportPhase

/-- The word after `import` that names the phase; evaluation goes without one. -/
def word? : ImportPhase → Option String
  | evaluation => none
  | .defer => some "defer"
  | source => some "source"

/-- The phase that a word names. -/
def ofWord? (w : String) : Option ImportPhase :=
  [ImportPhase.defer, source].find? fun p => p.word? == some w

end ImportPhase

end StepTrace.Script
