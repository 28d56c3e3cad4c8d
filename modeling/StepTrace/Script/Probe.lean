import StepTrace.Script.Scope

/-!
Probes: calls that report a step while a program runs. A call says where the step is, hands over an
object whose getters read the variables in scope, and says whether the value of a function follows.
-/
namespace StepTrace.Script

inductive ProbeKind where
  /-- At the start of a function; it reads the parameters alone. -/
  | entry
  /-- After a statement; it reads all that is in scope. -/
  | statement
  /-- Before the value of an arrow function. -/
  | implicitReturn
deriving DecidableEq, Repr, Inhabited

/-- What is known of one probe. -/
structure ProbeSite where
  kind : ProbeKind
  position : Position
  names : List String
deriving DecidableEq, Repr, Inhabited

namespace Probe

def ident (name : String) : Expr := .ident ⟨none, name⟩

def number (n : Nat) : Expr := .literal none (.number (toString n))

/-- A getter that reads one variable. -/
def getter (name : String) : Property :=
  .getter none (.name ⟨none, name⟩) (.mk none [.returnStmt none (some (ident name))])

/-- The call that a site stands for. -/
def call (file : String) (site : ProbeSite) : Expr :=
  .call none .plain (ident recordName)
    [number site.position.line, number site.position.column, .object none (site.names.map getter),
      .literal none (.boolean (site.kind = .implicitReturn)), .literal none (.string file "")]

/-- The call as a statement. -/
def stmt (e : Expr) : Stmt := .expr none e

/-- An expression with a call before it. -/
def before (call e : Expr) : Expr := .paren none (.sequence none [call, e])

/-- A program runs without a recorder too: then the calls do nothing. -/
def fallback : Stmt :=
  .varDecl (.mk none .var false [.mk none (.ident ⟨none, recordName⟩)
    (some (.binary none .logicalOr (.member none .plain (ident "globalThis") ⟨none, recordName⟩)
      (.func none (.mk none false false [] [] (some (.mk none []))))))])

end Probe

/-! ### Directives -/

namespace Expr

def isString : Expr → Bool
  | literal _ (.string ..) => true
  | _ => false

end Expr

namespace Stmt

/-- A statement that is a string may be a directive. -/
def isDirective : Stmt → Bool
  | expr _ e => e.isString
  | _ => false

/-- Puts statements after the directives at the start. -/
def insertAfterDirectives (new : List Stmt) (stmts : List Stmt) : List Stmt :=
  stmts.takeWhile isDirective ++ new ++ stmts.dropWhile isDirective

end Stmt

end StepTrace.Script
