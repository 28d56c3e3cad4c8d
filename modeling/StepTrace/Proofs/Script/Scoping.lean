import StepTrace.Script.Instrument
import StepTrace.Script.Typed.Declared

/-!
Which names are bound at a place of a program, by the rules of JavaScript and without any traversal: a
parameter in its function, a `var` in the whole body it stands in, a `let` or `const` in the whole list of
statements, a variable of the head of a loop in the loop, a parameter of `catch` in its clause. A program is
scoped if each of its probes reads only names that are bound where it stands.
-/
namespace StepTrace.Script

/-! ### Names that statements declare -/

/-- The names that variables declare where they stand. -/
def VarDecl.lexicalNames (d : VarDecl) : List String :=
  match d.kind with
  | .let | .const => d.boundNames
  | _ => []

def LoopHead.lexicalNames : LoopHead → List String
  | .varDecl d => d.lexicalNames
  | _ => []

/-- The names that a member of a list of statements declares in that list. -/
def Stmt.lexicalNames : Stmt → List String
  | .varDecl d | .exportDecl _ (.varDecl d) => d.lexicalNames
  | _ => []

def Stmt.lexicalNamesOf (ss : List Stmt) : List String := ss.flatMap Stmt.lexicalNames

def SwitchCase.stmts : SwitchCase → List Stmt
  | .mk _ _ ss => ss

def ArrowBody.varNames : ArrowBody → List String
  | .block b => b.varNames
  | .expr _ => []

/-- The clauses of a `switch` have one scope. -/
def SwitchCase.lexicalNamesOf (cs : List SwitchCase) : List String :=
  cs.flatMap fun c => Stmt.lexicalNamesOf c.stmts

/-! ### Probes and the names they read -/

/-- A call is a probe: it calls the recording function, and nobody wrote either. -/
def Expr.isProbeCall (p : Place) : Expr → Bool
  | .ident n => p.isNone && n.place.isNone && n.text == recordName
  | _ => false

/-- The name that a getter reads. -/
def Property.getterName? : Property → Option String
  | .getter _ (.name n) _ => some n.text
  | _ => none

def Expr.getterNames : Expr → List String
  | .object _ members => members.filterMap Property.getterName?
  | _ => []

/-- The names that a call captures; none if it is no probe. -/
def Expr.captures (p : Place) (callee : Expr) (args : List Expr) : List String :=
  if callee.isProbeCall p then args.flatMap Expr.getterNames else []

/-- All of some names are bound. -/
def binds (env names : List String) : Bool := names.all fun x => decide (x ∈ env)

/-! ### Programs whose probes read what is bound -/

mutual

/-- The probes inside read only names that are bound where they stand; `env` is bound outside. -/
def Expr.isScoped (env : List String) : Expr → Bool
  | .template _ _ parts => Expr.areScoped env parts
  | .tagged _ tag _ parts => tag.isScoped env && Expr.areScoped env parts
  | .array _ items | .sequence _ items => Expr.areScoped env items
  | .object _ members => Property.areScoped env members
  | .func _ f => f.isScoped env
  | .classExpr _ c => c.isScoped env
  | .arrow _ _ ps b =>
    Pat.areScoped (Pat.boundNamesOf ps ++ env) ps && b.isScoped (Pat.boundNamesOf ps ++ env)
  | .unary _ _ e | .update _ _ _ e | .member _ _ e _ | .paren _ e | .await _ e | .spread _ e
  | .ascribed _ _ e => e.isScoped env
  | .binary _ _ l r | .index _ _ l r => l.isScoped env && r.isScoped env
  | .assign _ _ q e => q.isScoped env && e.isScoped env
  | .cond _ a b c => a.isScoped env && b.isScoped env && c.isScoped env
  | .call p _ e args =>
    binds env (Expr.captures p e args) && e.isScoped env && Expr.areScoped env args
  | .construct _ e _ args => e.isScoped env && Expr.areScoped env args
  | .yield _ _ e => Expr.isScoped? env e
  | .element _ _ _ as_ cs => JsxPart.areScoped env as_ && JsxPart.areScoped env cs
  | .this _ | .superRef _ | .importRef _ | .ident _ | .literal .. | .metaProperty .. | .elision => true

def Expr.areScoped (env : List String) : List Expr → Bool
  | [] => true
  | e :: r => e.isScoped env && Expr.areScoped env r

def Expr.isScoped? (env : List String) : Option Expr → Bool
  | none => true
  | some e => e.isScoped env

def JsxPart.isScoped (env : List String) : JsxPart → Bool
  | .attribute _ none | .text _ => true
  | .attribute _ (some v) => v.isScoped env
  | .spread e | .child e => e.isScoped env
  | .container e => Expr.isScoped? env e

def JsxPart.areScoped (env : List String) : List JsxPart → Bool
  | [] => true
  | p :: r => p.isScoped env && JsxPart.areScoped env r

/-- The key of a member is outside of the function that the member holds. -/
def Property.isScoped (env : List String) : Property → Bool
  | .shorthand _ e => Expr.isScoped? env e
  | .keyValue k e => k.isScoped env && e.isScoped env
  | .method k f => k.isScoped env && f.isScoped env
  | .getter _ k b => k.isScoped env && b.isScoped (b.varNames ++ env)
  | .setter _ k q b =>
    k.isScoped env && q.isScoped (q.boundNames ++ env) &&
      b.isScoped (b.varNames ++ (q.boundNames ++ env))
  | .spread _ e => e.isScoped env

def Property.areScoped (env : List String) : List Property → Bool
  | [] => true
  | p :: r => p.isScoped env && Property.areScoped env r

def Key.isScoped (env : List String) : Key → Bool
  | .computed _ e => e.isScoped env
  | .name _ | .literal .. => true

def Pat.isScoped (env : List String) : Pat → Bool
  | .ident _ | .elision => true
  | .array _ items => Pat.areScoped env items
  | .object _ members => PatProperty.areScoped env members
  | .rest _ q => q.isScoped env
  | .withDefault _ q e => q.isScoped env && e.isScoped env
  | .expr e => e.isScoped env

def Pat.areScoped (env : List String) : List Pat → Bool
  | [] => true
  | q :: r => q.isScoped env && Pat.areScoped env r

def Pat.isScoped? (env : List String) : Option Pat → Bool
  | none => true
  | some q => q.isScoped env

def PatProperty.isScoped (env : List String) : PatProperty → Bool
  | .keyValue k q => k.isScoped env && q.isScoped env
  | .shorthand _ _ e => Expr.isScoped? env e
  | .rest _ q => q.isScoped env

def PatProperty.areScoped (env : List String) : List PatProperty → Bool
  | [] => true
  | p :: r => p.isScoped env && PatProperty.areScoped env r

/-- Decorators, also those of parameters, are outside of the function. -/
def Function.isScoped (env : List String) : Function → Bool
  | .mk _ _ _ ds ps b =>
    Expr.areScoped env ds && Param.areScoped env (Param.boundNamesOf ps ++ env) ps &&
      Block.isBodyScoped? (Param.boundNamesOf ps ++ env) b

/-- The body of a function whose parameters are bound. -/
def Block.isBodyScoped? (env : List String) : Option Block → Bool
  | none => true
  | some b => b.isScoped (b.varNames ++ env)

/-- A parameter of a function; `outer` is bound outside of the function. -/
def Param.isScoped (outer env : List String) : Param → Bool
  | .mk _ ds _ q => Expr.areScoped outer ds && q.isScoped env

def Param.areScoped (outer env : List String) : List Param → Bool
  | [] => true
  | p :: r => p.isScoped outer env && Param.areScoped outer env r

def ArrowBody.isScoped (env : List String) : ArrowBody → Bool
  | .block b => b.isScoped (b.varNames ++ env)
  | .expr e => e.isScoped env

def Block.isScoped (env : List String) : Block → Bool
  | .mk _ ss => Stmt.areScoped (Stmt.lexicalNamesOf ss ++ env) ss

def Block.isScoped? (env : List String) : Option Block → Bool
  | none => true
  | some b => b.isScoped env

def Class.isScoped (env : List String) : Class → Bool
  | .mk _ ds members parent =>
    Expr.areScoped env ds && ClassMember.areScoped env members && Expr.isScoped? env parent

/-- A static block is a body of its own. -/
def ClassMember.isScoped (env : List String) : ClassMember → Bool
  | .ctor _ _ ps b =>
    Param.areScoped env (Param.boundNamesOf ps ++ env) ps &&
      Block.isBodyScoped? (Param.boundNamesOf ps ++ env) b
  | .method _ k _ _ _ f => k.isScoped env && f.isScoped env
  | .property _ k _ _ _ v ds => k.isScoped env && Expr.isScoped? env v && Expr.areScoped env ds
  | .staticBlock _ b => b.isScoped (b.varNames ++ env)
  | .empty _ => true

def ClassMember.areScoped (env : List String) : List ClassMember → Bool
  | [] => true
  | m :: r => m.isScoped env && ClassMember.areScoped env r

def Stmt.isScoped (env : List String) : Stmt → Bool
  | .block b => b.isScoped env
  | .withObject _ e s | .whileLoop _ e s | .doWhileLoop _ e s => e.isScoped env && s.isScoped env
  | .returnStmt _ e => Expr.isScoped? env e
  | .labeled _ _ s | .exportDecl _ s => s.isScoped env
  | .ifElse _ e yes no => e.isScoped env && yes.isScoped env && Stmt.isScoped? env no
  | .switchOn _ e cases =>
    e.isScoped env && SwitchCase.areScoped (SwitchCase.lexicalNamesOf cases ++ env) cases
  | .throwStmt _ e | .expr _ e | .exportDefault _ e => e.isScoped env
  | .tryStmt _ b c f => b.isScoped env && Catch.isScoped? env c && Block.isScoped? env f
  | .forLoop _ h test update s =>
    h.isScoped (h.lexicalNames ++ env) && Expr.isScoped? (h.lexicalNames ++ env) test &&
      Expr.isScoped? (h.lexicalNames ++ env) update && s.isScoped (h.lexicalNames ++ env)
  | .forIn _ h e s | .forOf _ _ h e s =>
    h.isScoped (h.lexicalNames ++ env) && e.isScoped (h.lexicalNames ++ env) &&
      s.isScoped (h.lexicalNames ++ env)
  | .varDecl d => d.isScoped env
  | .func _ f | .exportDefaultFunc _ _ f => f.isScoped env
  | .classDecl _ c | .exportDefaultClass _ _ c => c.isScoped env
  | .empty _ | .debugger _ | .breakTo .. | .continueTo .. | .importNames .. | .exportNames ..
  | .exportAll .. | .typed _ => true

def Stmt.isScoped? (env : List String) : Option Stmt → Bool
  | none => true
  | some s => s.isScoped env

def Stmt.areScoped (env : List String) : List Stmt → Bool
  | [] => true
  | s :: r => s.isScoped env && Stmt.areScoped env r

def VarDecl.isScoped (env : List String) : VarDecl → Bool
  | .mk _ _ _ items => Declarator.areScoped env items

def Declarator.isScoped (env : List String) : Declarator → Bool
  | .mk _ q e => q.isScoped env && Expr.isScoped? env e

def Declarator.areScoped (env : List String) : List Declarator → Bool
  | [] => true
  | d :: r => d.isScoped env && Declarator.areScoped env r

def SwitchCase.isScoped (env : List String) : SwitchCase → Bool
  | .mk _ e ss => Expr.isScoped? env e && Stmt.areScoped env ss

def SwitchCase.areScoped (env : List String) : List SwitchCase → Bool
  | [] => true
  | c :: r => c.isScoped env && SwitchCase.areScoped env r

def Catch.isScoped (env : List String) : Catch → Bool
  | .mk _ q b =>
    Pat.isScoped? (q.elim [] Pat.boundNames ++ env) q && b.isScoped (q.elim [] Pat.boundNames ++ env)

def Catch.isScoped? (env : List String) : Option Catch → Bool
  | none => true
  | some c => c.isScoped env

def LoopHead.isScoped (env : List String) : LoopHead → Bool
  | .none => true
  | .varDecl d => d.isScoped env
  | .pat q => q.isScoped env
  | .expr e => e.isScoped env

end

/-- Every probe of a program reads only names that are bound where it stands. -/
def Program.isScoped (p : Program) : Bool :=
  Stmt.areScoped (Stmt.lexicalNamesOf p.body ++ Stmt.varNamesOf p.body) p.body

end StepTrace.Script
