import StepTrace.Proofs.Script.Placement

/-!
What the probes after steps have to read, by the order of the text and the scopes of JavaScript: the parameters
of the functions around, what `catch` and the heads of loops bind around, and what members of lists of
statements declare before, a `let` or `const` for the rest of its list and a `var` for the rest of its
function. No scopes are traversed here.
-/
namespace StepTrace.Script

/-- A name that a probe has to read. It is late if the probe stands in the condition of a `do` loop and the
name is declared in the body of the loop, which comes before the condition. -/
structure Due where
  name : String
  isLate : Bool
deriving DecidableEq, Repr

/-- What the probe after a step has to read. -/
structure Demand where
  span : Span
  dues : List Due
deriving Repr

def due (names : List String) : List Due := names.map (⟨·, false⟩)

def lateDue (names : List String) : List Due := names.map (⟨·, true⟩)

/-! ### What statements leave to read -/

/-- The names that a member of a list declares by `var`. -/
def Stmt.ownVars : Stmt → List String
  | .varDecl d | .exportDecl _ (.varDecl d) => d.varNames
  | _ => []

mutual

/-- The names that `var` declares inside a statement, as a member of a list or in the head of a loop. -/
def Stmt.listedVars : Stmt → List String
  | .block b => b.listedVars
  | .withObject _ _ s | .labeled _ _ s | .whileLoop _ _ s | .doWhileLoop _ _ s | .exportDecl _ s =>
    s.listedVars
  | .ifElse _ _ yes no => yes.listedVars ++ Stmt.listedVars? no
  | .switchOn _ _ cases => SwitchCase.listedVarsOf cases
  | .tryStmt _ b c f => b.listedVars ++ (Catch.listedVars? c ++ Block.listedVars? f)
  | .forLoop _ h _ _ s | .forIn _ h _ s | .forOf _ _ h _ s => h.varNames ++ s.listedVars
  | .empty _ | .debugger _ | .returnStmt .. | .breakTo .. | .continueTo .. | .throwStmt .. | .varDecl _
  | .func .. | .classDecl .. | .expr .. | .importNames .. | .exportNames .. | .exportAll ..
  | .exportDefault .. | .exportDefaultFunc .. | .exportDefaultClass .. | .typed _ => []

def Stmt.listedVars? : Option Stmt → List String
  | none => []
  | some s => s.listedVars

/-- What `var` declares in a list of statements, at any depth but in no function. -/
def Stmt.listedVarsOf : List Stmt → List String
  | [] => []
  | s :: r => s.listedVars ++ (s.ownVars ++ Stmt.listedVarsOf r)

def Block.listedVars : Block → List String
  | .mk _ ss => Stmt.listedVarsOf ss

def Block.listedVars? : Option Block → List String
  | none => []
  | some b => b.listedVars

def SwitchCase.listedVarsOf : List SwitchCase → List String
  | [] => []
  | .mk _ _ ss :: r => Stmt.listedVarsOf ss ++ SwitchCase.listedVarsOf r

def Catch.listedVars? : Option Catch → List String
  | none => []
  | some (.mk _ _ b) => b.listedVars

end

/-- What can be read after a member of a list: what is declared in it, and what it declares itself. -/
def Stmt.leave (env : List Due) (s : Stmt) : List Due :=
  due (s.ownVars ++ s.lexicalNames) ++ (due s.listedVars ++ env)

/-- What can be read in a loop: also what its head declares. -/
def LoopHead.leave (env : List Due) (h : LoopHead) : List Due := due (h.varNames ++ h.lexicalNames) ++ env

/-! ### The demands of a program

They come in the order in which the probes are made: the members of a class before what it extends, and the
condition of a `do` loop before its body. -/

mutual

/-- The demands of the steps inside; `env` can be read around. -/
def Expr.demands (env : List Due) : Expr → List Demand
  | .template _ _ parts => Expr.demandsOf env parts
  | .tagged _ tag _ parts => tag.demands env ++ Expr.demandsOf env parts
  | .array _ items | .sequence _ items => Expr.demandsOf env items
  | .object _ members => Property.demandsOf env members
  | .func _ f => f.demands env
  | .classExpr _ c => c.demands env
  | .arrow _ _ ps b => Pat.demandsOf env ps ++ b.demands (due (Pat.boundNamesOf ps) ++ env)
  | .unary _ _ e | .update _ _ _ e | .member _ _ e _ | .paren _ e | .await _ e | .spread _ e
  | .ascribed _ _ e => e.demands env
  | .binary _ _ l r | .index _ _ l r => l.demands env ++ r.demands env
  | .assign _ _ q e => q.demands env ++ e.demands env
  | .cond _ a b c => a.demands env ++ (b.demands env ++ c.demands env)
  | .call _ _ e args | .construct _ e _ args => e.demands env ++ Expr.demandsOf env args
  | .yield _ _ e => Expr.demands? env e
  | .element _ _ _ as_ cs => JsxPart.demandsOf env as_ ++ JsxPart.demandsOf env cs
  | .this _ | .superRef _ | .importRef _ | .ident _ | .literal .. | .metaProperty .. | .elision => []

def Expr.demandsOf (env : List Due) : List Expr → List Demand
  | [] => []
  | e :: r => e.demands env ++ Expr.demandsOf env r

def Expr.demands? (env : List Due) : Option Expr → List Demand
  | none => []
  | some e => e.demands env

def JsxPart.demands (env : List Due) : JsxPart → List Demand
  | .attribute _ none | .text _ => []
  | .attribute _ (some v) => v.demands env
  | .spread e | .child e => e.demands env
  | .container e => Expr.demands? env e

def JsxPart.demandsOf (env : List Due) : List JsxPart → List Demand
  | [] => []
  | p :: r => p.demands env ++ JsxPart.demandsOf env r

def Property.demands (env : List Due) : Property → List Demand
  | .shorthand _ e => Expr.demands? env e
  | .keyValue k e => k.demands env ++ e.demands env
  | .method k f => k.demands env ++ f.demands env
  | .getter _ k b => k.demands env ++ b.demands env
  | .setter _ k q b => k.demands env ++ (q.demands env ++ b.demands (due q.boundNames ++ env))
  | .spread _ e => e.demands env

def Property.demandsOf (env : List Due) : List Property → List Demand
  | [] => []
  | p :: r => p.demands env ++ Property.demandsOf env r

def Key.demands (env : List Due) : Key → List Demand
  | .computed _ e => e.demands env
  | .name _ | .literal .. => []

def Pat.demands (env : List Due) : Pat → List Demand
  | .ident _ | .elision => []
  | .array _ items => Pat.demandsOf env items
  | .object _ members => PatProperty.demandsOf env members
  | .rest _ q => q.demands env
  | .withDefault _ q e => q.demands env ++ e.demands env
  | .expr e => e.demands env

def Pat.demandsOf (env : List Due) : List Pat → List Demand
  | [] => []
  | q :: r => q.demands env ++ Pat.demandsOf env r

def Pat.demands? (env : List Due) : Option Pat → List Demand
  | none => []
  | some q => q.demands env

def PatProperty.demands (env : List Due) : PatProperty → List Demand
  | .keyValue k q => k.demands env ++ q.demands env
  | .shorthand _ _ e => Expr.demands? env e
  | .rest _ q => q.demands env

def PatProperty.demandsOf (env : List Due) : List PatProperty → List Demand
  | [] => []
  | p :: r => p.demands env ++ PatProperty.demandsOf env r

/-- Parameters can be read in the body. -/
def Function.demands (env : List Due) : Function → List Demand
  | .mk _ _ _ ds ps b =>
    Expr.demandsOf env ds ++
      (Param.demandsOf env ps ++ Block.demands? (due (Param.boundNamesOf ps) ++ env) b)

def Param.demands (env : List Due) : Param → List Demand
  | .mk _ ds _ q => Expr.demandsOf env ds ++ q.demands env

def Param.demandsOf (env : List Due) : List Param → List Demand
  | [] => []
  | p :: r => p.demands env ++ Param.demandsOf env r

def ArrowBody.demands (env : List Due) : ArrowBody → List Demand
  | .block b => b.demands env
  | .expr e => e.demands env

def Block.demands (env : List Due) : Block → List Demand
  | .mk _ ss => Stmt.demandsOf env ss

def Block.demands? (env : List Due) : Option Block → List Demand
  | none => []
  | some b => b.demands env

def Class.demands (env : List Due) : Class → List Demand
  | .mk _ ds members parent =>
    Expr.demandsOf env ds ++ (ClassMember.demandsOf env members ++ Expr.demands? env parent)

def ClassMember.demands (env : List Due) : ClassMember → List Demand
  | .ctor _ _ ps b => Param.demandsOf env ps ++ Block.demands? (due (Param.boundNamesOf ps) ++ env) b
  | .method _ k _ _ _ f => k.demands env ++ f.demands env
  | .property _ k _ _ _ v ds => k.demands env ++ (Expr.demands? env v ++ Expr.demandsOf env ds)
  | .staticBlock _ b => b.demands env
  | .empty _ => []

def ClassMember.demandsOf (env : List Due) : List ClassMember → List Demand
  | [] => []
  | m :: r => m.demands env ++ ClassMember.demandsOf env r

/-- What one part of a statement declares by `var` can be read in the parts that come after it. -/
def Stmt.demands (env : List Due) : Stmt → List Demand
  | .block b => b.demands env
  | .withObject _ e s | .whileLoop _ e s => e.demands env ++ s.demands env
  | .doWhileLoop _ e s => e.demands (lateDue s.listedVars ++ env) ++ s.demands env
  | .returnStmt _ e => Expr.demands? env e
  | .labeled _ _ s | .exportDecl _ s => s.demands env
  | .ifElse _ e yes no =>
    e.demands env ++ (yes.demands env ++ Stmt.demands? (due yes.listedVars ++ env) no)
  | .switchOn _ e cases => e.demands env ++ SwitchCase.demandsOf env cases
  | .throwStmt _ e | .expr _ e | .exportDefault _ e => e.demands env
  | .tryStmt _ b c f =>
    b.demands env ++ (Catch.demands? (due b.listedVars ++ env) c ++
      Block.demands? (due (Catch.listedVars? c) ++ (due b.listedVars ++ env)) f)
  | .forLoop _ h test update s =>
    h.demands env ++ (Expr.demands? (h.leave env) test ++
      (Expr.demands? (h.leave env) update ++ s.demands (h.leave env)))
  | .forIn _ h e s | .forOf _ _ h e s =>
    h.demands env ++ (e.demands env ++ s.demands (h.leave env))
  | .varDecl d => d.demands env
  | .func _ f | .exportDefaultFunc _ _ f => f.demands env
  | .classDecl _ c | .exportDefaultClass _ _ c => c.demands env
  | .empty _ | .debugger _ | .breakTo .. | .continueTo .. | .importNames .. | .exportNames ..
  | .exportAll .. | .typed _ => []

def Stmt.demands? (env : List Due) : Option Stmt → List Demand
  | none => []
  | some s => s.demands env

/-- The probe of a step comes after it, so it also reads what the step declares. -/
def Stmt.demandsOf (env : List Due) : List Stmt → List Demand
  | [] => []
  | s :: r =>
    s.demands env ++ ((s.step?.map fun span => ⟨span, s.leave env⟩).toList ++
      Stmt.demandsOf (s.leave env) r)

def VarDecl.demands (env : List Due) : VarDecl → List Demand
  | .mk _ _ _ items => Declarator.demandsOf env items

def Declarator.demands (env : List Due) : Declarator → List Demand
  | .mk _ q e => q.demands env ++ Expr.demands? env e

def Declarator.demandsOf (env : List Due) : List Declarator → List Demand
  | [] => []
  | d :: r => d.demands env ++ Declarator.demandsOf env r

def SwitchCase.demands (env : List Due) : SwitchCase → List Demand
  | .mk _ e ss => Expr.demands? env e ++ Stmt.demandsOf env ss

/-- The clauses of a `switch` are one list of statements. -/
def SwitchCase.demandsOf (env : List Due) : List SwitchCase → List Demand
  | [] => []
  | c :: r =>
    c.demands env ++
      SwitchCase.demandsOf (due (Stmt.listedVarsOf c.stmts ++ Stmt.lexicalNamesOf c.stmts) ++ env) r

def Catch.demands (env : List Due) : Catch → List Demand
  | .mk _ q b => Pat.demands? env q ++ b.demands (due (q.elim [] Pat.boundNames) ++ env)

def Catch.demands? (env : List Due) : Option Catch → List Demand
  | none => []
  | some c => c.demands env

def LoopHead.demands (env : List Due) : LoopHead → List Demand
  | .none => []
  | .varDecl d => d.demands env
  | .pat q => q.demands env
  | .expr e => e.demands env

end

/-- What the probes after the steps of a program have to read, at every depth. -/
def Program.demands (p : Program) : List Demand := Stmt.demandsOf [] p.body

end StepTrace.Script
