import StepTrace.Proofs.Script.Scoping

/-!
What is bound around each probe of a program, by the rules of JavaScript and without any traversal of scopes,
and which of it has been passed there. A list of statements binds all names that it declares in all of its
statements; what a statement declares is passed in the statements after it, and before them if it is hoisted.
-/
namespace StepTrace.Script

/-- A name that is bound around a place. It is passed if it can be read there, as far as the text tells: it
is not declared by the statement around the place or by a later one of the same list. -/
structure Binding where
  name : String
  isPassed : Bool
deriving DecidableEq, Repr

/-- What a probe reads, with what is bound around it, the innermost first. -/
structure Reading where
  env : List Binding
  names : List String
deriving Repr

/-- The binding that a name resolves to, with those around it. -/
def resolution (env : List Binding) (x : String) : List Binding := env.dropWhile fun b => b.name ≠ x

/-- Names that are passed wherever they are bound. -/
def passed (names : List String) : List Binding := names.map (⟨·, true⟩)

/-! ### What a list of statements binds -/

/-- What a statement declares can be read before it as well. -/
def Stmt.isHoisted : Stmt → Bool
  | .func .. | .exportDecl _ (.func ..) | .exportDefaultFunc .. | .importNames .. => true
  | _ => false

/-- What a statement declares for its list, after it. -/
def Stmt.passedNames (s : Stmt) : List Binding := passed s.declaredNames

/-- What a statement declares for its list, in it and before it. -/
def Stmt.pendingNames (s : Stmt) : List Binding := s.declaredNames.map (⟨·, s.isHoisted⟩)

def Stmt.passedNamesOf (ss : List Stmt) : List Binding := ss.flatMap Stmt.passedNames

def Stmt.pendingNamesOf (ss : List Stmt) : List Binding := ss.flatMap Stmt.pendingNames

/-- What clauses of a `switch` declare, before them. -/
def SwitchCase.pendingNamesOf (cs : List SwitchCase) : List Binding :=
  cs.flatMap fun c => Stmt.pendingNamesOf c.stmts

/-! ### The probes of a program -/

mutual

/-- The probes inside, with what is bound around each; `env` is bound outside. -/
def Expr.readings (env : List Binding) : Expr → List Reading
  | .template _ _ parts => Expr.readingsOf env parts
  | .tagged _ tag _ parts => tag.readings env ++ Expr.readingsOf env parts
  | .array _ items | .sequence _ items => Expr.readingsOf env items
  | .object _ members => Property.readingsOf env members
  | .func n f => f.readings (passed (n.map Ident.text).toList ++ env)
  | .classExpr n c => c.readings env (passed (n.map Ident.text).toList ++ env)
  | .arrow _ _ ps b =>
    Pat.readingsOf (passed (Pat.boundNamesOf ps) ++ env) ps ++
      b.readings (passed (Pat.boundNamesOf ps) ++ env)
  | .unary _ _ e | .update _ _ _ e | .member _ _ e _ | .paren _ e | .await _ e | .spread _ e
  | .ascribed _ _ e => e.readings env
  | .binary _ _ l r | .index _ _ l r => l.readings env ++ r.readings env
  | .assign _ _ q e => q.readings env ++ e.readings env
  | .cond _ a b c => a.readings env ++ b.readings env ++ c.readings env
  | .call p _ e args =>
    (if e.isProbeCall p then [⟨env, e.captures p args⟩] else []) ++ e.readings env ++
      Expr.readingsOf env args
  | .construct _ e _ args => e.readings env ++ Expr.readingsOf env args
  | .yield _ _ e => Expr.readings? env e
  | .element _ _ _ as_ cs => JsxPart.readingsOf env as_ ++ JsxPart.readingsOf env cs
  | .this _ | .superRef _ | .importRef _ | .ident _ | .literal .. | .metaProperty .. | .elision => []

def Expr.readingsOf (env : List Binding) : List Expr → List Reading
  | [] => []
  | e :: r => e.readings env ++ Expr.readingsOf env r

def Expr.readings? (env : List Binding) : Option Expr → List Reading
  | none => []
  | some e => e.readings env

def JsxPart.readings (env : List Binding) : JsxPart → List Reading
  | .attribute _ none | .text _ => []
  | .attribute _ (some v) => v.readings env
  | .spread e | .child e => e.readings env
  | .container e => Expr.readings? env e

def JsxPart.readingsOf (env : List Binding) : List JsxPart → List Reading
  | [] => []
  | p :: r => p.readings env ++ JsxPart.readingsOf env r

/-- The key of a member is outside of the function that the member holds. -/
def Property.readings (env : List Binding) : Property → List Reading
  | .shorthand _ e => Expr.readings? env e
  | .keyValue k e => k.readings env ++ e.readings env
  | .method k f => k.readings env ++ f.readings env
  | .getter _ k b => k.readings env ++ b.readings (passed b.varNames ++ env)
  | .setter _ k q b =>
    k.readings env ++ q.readings (passed q.boundNames ++ env) ++
      b.readings (passed b.varNames ++ (passed q.boundNames ++ env))
  | .spread _ e => e.readings env

def Property.readingsOf (env : List Binding) : List Property → List Reading
  | [] => []
  | p :: r => p.readings env ++ Property.readingsOf env r

def Key.readings (env : List Binding) : Key → List Reading
  | .computed _ e => e.readings env
  | .name _ | .literal .. => []

def Pat.readings (env : List Binding) : Pat → List Reading
  | .ident _ | .elision => []
  | .array _ items => Pat.readingsOf env items
  | .object _ members => PatProperty.readingsOf env members
  | .rest _ q => q.readings env
  | .withDefault _ q e => q.readings env ++ e.readings env
  | .expr e => e.readings env

def Pat.readingsOf (env : List Binding) : List Pat → List Reading
  | [] => []
  | q :: r => q.readings env ++ Pat.readingsOf env r

def Pat.readings? (env : List Binding) : Option Pat → List Reading
  | none => []
  | some q => q.readings env

def PatProperty.readings (env : List Binding) : PatProperty → List Reading
  | .keyValue k q => k.readings env ++ q.readings env
  | .shorthand _ _ e => Expr.readings? env e
  | .rest _ q => q.readings env

def PatProperty.readingsOf (env : List Binding) : List PatProperty → List Reading
  | [] => []
  | p :: r => p.readings env ++ PatProperty.readingsOf env r

/-- Decorators, also those of parameters, are outside of the function. -/
def Function.readings (env : List Binding) : Function → List Reading
  | .mk _ _ _ ds ps b =>
    Expr.readingsOf env ds ++ Param.readingsOf env (passed (Param.boundNamesOf ps) ++ env) ps ++
      Block.bodyReadings? (passed (Param.boundNamesOf ps) ++ env) b

/-- The body of a function whose parameters are bound. -/
def Block.bodyReadings? (env : List Binding) : Option Block → List Reading
  | none => []
  | some b => b.readings (passed b.varNames ++ env)

/-- A parameter of a function; `outer` is bound outside of the function. -/
def Param.readings (outer env : List Binding) : Param → List Reading
  | .mk _ ds _ q => Expr.readingsOf outer ds ++ q.readings env

def Param.readingsOf (outer env : List Binding) : List Param → List Reading
  | [] => []
  | p :: r => p.readings outer env ++ Param.readingsOf outer env r

def ArrowBody.readings (env : List Binding) : ArrowBody → List Reading
  | .block b => b.readings (passed b.varNames ++ env)
  | .expr e => e.readings env

def Block.readings (env : List Binding) : Block → List Reading
  | .mk _ ss => Stmt.readingsOf [] env ss

def Block.readings? (env : List Binding) : Option Block → List Reading
  | none => []
  | some b => b.readings env

/-- The name of a class expression is bound in the class, but not for its decorators. -/
def Class.readings (outer env : List Binding) : Class → List Reading
  | .mk _ ds members parent =>
    Expr.readingsOf outer ds ++ ClassMember.readingsOf env members ++ Expr.readings? env parent

/-- A static block is a body of its own. -/
def ClassMember.readings (env : List Binding) : ClassMember → List Reading
  | .ctor _ _ ps b =>
    Param.readingsOf env (passed (Param.boundNamesOf ps) ++ env) ps ++
      Block.bodyReadings? (passed (Param.boundNamesOf ps) ++ env) b
  | .method _ k _ _ _ f => k.readings env ++ f.readings env
  | .property _ k _ _ _ v ds => k.readings env ++ Expr.readings? env v ++ Expr.readingsOf env ds
  | .staticBlock _ b => b.readings (passed b.varNames ++ env)
  | .empty _ => []

def ClassMember.readingsOf (env : List Binding) : List ClassMember → List Reading
  | [] => []
  | m :: r => m.readings env ++ ClassMember.readingsOf env r

/-- A loop binds the variables of its head. -/
def Stmt.readings (env : List Binding) : Stmt → List Reading
  | .block b => b.readings env
  | .withObject _ e s | .whileLoop _ e s | .doWhileLoop _ e s => e.readings env ++ s.readings env
  | .returnStmt _ e => Expr.readings? env e
  | .labeled _ _ s | .exportDecl _ s => s.readings env
  | .ifElse _ e yes no => e.readings env ++ yes.readings env ++ Stmt.readings? env no
  | .switchOn _ e cases => e.readings env ++ SwitchCase.readingsOf [] env cases
  | .throwStmt _ e | .expr _ e | .exportDefault _ e => e.readings env
  | .tryStmt _ b c f => b.readings env ++ Catch.readings? env c ++ Block.readings? env f
  | .forLoop _ h test update s =>
    h.readings (passed h.declaredNames ++ env) ++ Expr.readings? (passed h.declaredNames ++ env) test ++
      Expr.readings? (passed h.declaredNames ++ env) update ++
      s.readings (passed h.declaredNames ++ env)
  | .forIn _ h e s | .forOf _ _ h e s =>
    h.readings (passed h.declaredNames ++ env) ++ e.readings (passed h.declaredNames ++ env) ++
      s.readings (passed h.declaredNames ++ env)
  | .varDecl d => d.readings env
  | .func _ f | .exportDefaultFunc _ _ f => f.readings env
  | .classDecl _ c | .exportDefaultClass _ _ c => c.readings env env
  | .empty _ | .debugger _ | .breakTo .. | .continueTo .. | .importNames .. | .exportNames ..
  | .exportAll .. | .typed _ => []

def Stmt.readings? (env : List Binding) : Option Stmt → List Reading
  | none => []
  | some s => s.readings env

/-- The members of a list of statements; `earlier` is what its members before these declare. -/
def Stmt.readingsOf (earlier env : List Binding) : List Stmt → List Reading
  | [] => []
  | s :: r =>
    s.readings (earlier ++ Stmt.pendingNamesOf (s :: r) ++ env) ++
      Stmt.readingsOf (earlier ++ s.passedNames) env r

def VarDecl.readings (env : List Binding) : VarDecl → List Reading
  | .mk _ _ _ items => Declarator.readingsOf env items

def Declarator.readings (env : List Binding) : Declarator → List Reading
  | .mk _ q e => q.readings env ++ Expr.readings? env e

def Declarator.readingsOf (env : List Binding) : List Declarator → List Reading
  | [] => []
  | d :: r => d.readings env ++ Declarator.readingsOf env r

def SwitchCase.readings (earlier env : List Binding) : SwitchCase → List Reading
  | .mk _ e ss =>
    Expr.readings? (earlier ++ Stmt.pendingNamesOf ss ++ env) e ++ Stmt.readingsOf earlier env ss

/-- The clauses of a `switch` are one list of statements. -/
def SwitchCase.readingsOf (earlier env : List Binding) : List SwitchCase → List Reading
  | [] => []
  | c :: r =>
    c.readings earlier (SwitchCase.pendingNamesOf r ++ env) ++
      SwitchCase.readingsOf (earlier ++ Stmt.passedNamesOf c.stmts) env r

def Catch.readings (env : List Binding) : Catch → List Reading
  | .mk _ q b =>
    Pat.readings? (passed (q.elim [] Pat.boundNames) ++ env) q ++
      b.readings (passed (q.elim [] Pat.boundNames) ++ env)

def Catch.readings? (env : List Binding) : Option Catch → List Reading
  | none => []
  | some c => c.readings env

def LoopHead.readings (env : List Binding) : LoopHead → List Reading
  | .none => []
  | .varDecl d => d.readings env
  | .pat q => q.readings env
  | .expr e => e.readings env

end

/-- The probes of a program, with what is bound around each. -/
def Program.readings (p : Program) : List Reading :=
  Stmt.readingsOf [] (passed (Stmt.varNamesOf p.body)) p.body

end StepTrace.Script
