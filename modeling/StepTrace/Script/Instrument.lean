import StepTrace.Script.Probe

/-!
Putting probes into a program. A probe follows each statement that computes something, and stands at the
start of each function and before the value of an arrow function. It is placed by where the statement
was read; what was made up has no place and gets no probe.
-/
namespace StepTrace.Script

/-- What probes are made from: the name of the file, and the position of an offset in it. -/
structure Tracer where
  file : String
  position : Nat → Position

/-- What is in scope, and the probes so far, the latest first. -/
structure Tracing where
  scopes : ScopeStack
  sites : List ProbeSite

abbrev Trace := StateM Tracing

namespace Trace

def inScope {α : Type} (enter : ScopeStack → ScopeStack) (p : Trace α) : Trace α := do
  modify fun s => { s with scopes := enter s.scopes }
  let a ← p
  modify fun s => { s with scopes := s.scopes.pop }
  return a

def inBlock {α : Type} (p : Trace α) : Trace α := inScope (·.push .block) p

def inFunction {α : Type} (params : List String) (p : Trace α) : Trace α :=
  inScope (·.pushFunction params) p

/-- Declares the variables of a statement or of the head of a loop. -/
def declareVars (d : VarDecl) : Trace Unit :=
  modify fun s => { s with
    scopes := match d.kind with
      | .var => d.boundNames.foldl ScopeStack.declareVar s.scopes
      | .let | .const => s.scopes.declareAll d.boundNames
      | .using | .awaitUsing => s.scopes }

def declareHead : LoopHead → Trace Unit
  | .varDecl d => declareVars d
  | _ => return

/-- The call of a new probe; none for what has no place. -/
def probe (t : Tracer) (kind : ProbeKind) (p : Place) (names : List String) : Trace (Option Expr) := do
  match p with
  | none => return none
  | some span =>
    let site : ProbeSite := ⟨kind, t.position span.start, names⟩
    modify fun s => { s with sites := site :: s.sites }
    return some (Probe.call t.file site)

/-- A probe that reads all that is in scope, as a statement. -/
def stmtProbe (t : Tracer) (p : Place) : Trace (List Stmt) := do
  let call ← probe t .statement p (← get).scopes.visible
  return (call.map Probe.stmt).toList

/-- Declares what a statement declares, and gives the probe that follows it. -/
def after (t : Tracer) (s : Stmt) : Trace (List Stmt) := do
  match s with
  | .varDecl d =>
    declareVars d
    if d.isDeclare || d.kind = .using || d.kind = .awaitUsing then return []
    stmtProbe t d.place
  | .exportDecl p (.varDecl d) =>
    declareVars d
    stmtProbe t p
  | .expr p e => if e.isString then return [] else stmtProbe t p
  | _ => return []

/-- The body of a function, after the probe at its start. -/
def entering (t : Tracer) (p : Place) (params : List String) (body : Trace Block) : Trace Block := do
  let call ← probe t .entry p params
  let .mk q stmts ← body
  return .mk q (Stmt.insertAfterDirectives (call.map Probe.stmt).toList stmts)

/-- The value of an arrow function, after the probe before it. -/
def returning (t : Tracer) (p : Place) (params : List String) (value : Trace Expr) : Trace Expr := do
  let call ← probe t .implicitReturn p params
  let e ← value
  return match call with
    | some c => Probe.before c e
    | none => e

end Trace

open Trace

mutual

def Expr.instrument (t : Tracer) : Expr → Trace Expr
  | .template p chunks parts => return .template p chunks (← Expr.instruments t parts)
  | .tagged p tag chunks parts =>
    return .tagged p (← tag.instrument t) chunks (← Expr.instruments t parts)
  | .array p items => return .array p (← Expr.instruments t items)
  | .object p members => return .object p (← Property.instruments t members)
  | .func n f => return .func n (← f.instrument t)
  | .classExpr n c => return .classExpr n (← c.instrument t)
  | .arrow p a ps b => do
    let names := Pat.boundNamesOf ps
    inFunction names do
      let ps ← Pat.instruments t ps
      return .arrow p a ps (← b.instrument t p names)
  | .unary p op e => return .unary p op (← e.instrument t)
  | .update p op pre e => return .update p op pre (← e.instrument t)
  | .binary p op l r => return .binary p op (← l.instrument t) (← r.instrument t)
  | .assign p op q e => return .assign p op (← q.instrument t) (← e.instrument t)
  | .cond p a b c => return .cond p (← a.instrument t) (← b.instrument t) (← c.instrument t)
  | .member p l e n => return .member p l (← e.instrument t) n
  | .index p l e k => return .index p l (← e.instrument t) (← k.instrument t)
  | .call p l e args => return .call p l (← e.instrument t) (← Expr.instruments t args)
  | .construct p e h args => return .construct p (← e.instrument t) h (← Expr.instruments t args)
  | .sequence p items => return .sequence p (← Expr.instruments t items)
  | .paren p e => return .paren p (← e.instrument t)
  | .await p e => return .await p (← e.instrument t)
  | .yield p d e => return .yield p d (← Expr.instrument? t e)
  | .spread p e => return .spread p (← e.instrument t)
  | .element p n c as_ cs =>
    return .element p n c (← JsxPart.instruments t as_) (← JsxPart.instruments t cs)
  | .ascribed p h e => return .ascribed p h (← e.instrument t)
  | e => return e

def Expr.instruments (t : Tracer) : List Expr → Trace (List Expr)
  | [] => return []
  | e :: r => return (← e.instrument t) :: (← Expr.instruments t r)

def Expr.instrument? (t : Tracer) : Option Expr → Trace (Option Expr)
  | none => return none
  | some e => return some (← e.instrument t)

def JsxPart.instrument (t : Tracer) : JsxPart → Trace JsxPart
  | .attribute n none => return .attribute n none
  | .attribute n (some v) => return .attribute n (some (← v.instrument t))
  | .spread e => return .spread (← e.instrument t)
  | .text s => return .text s
  | .container e => return .container (← Expr.instrument? t e)
  | .child e => return .child (← e.instrument t)

def JsxPart.instruments (t : Tracer) : List JsxPart → Trace (List JsxPart)
  | [] => return []
  | p :: r => return (← p.instrument t) :: (← JsxPart.instruments t r)

def Property.instrument (t : Tracer) : Property → Trace Property
  | .shorthand n e => return .shorthand n (← Expr.instrument? t e)
  | .keyValue k e => return .keyValue (← k.instrument t) (← e.instrument t)
  | .method k f => return .method (← k.instrument t) (← f.instrument t)
  | .getter p k b => inFunction [] do return .getter p (← k.instrument t) (← b.instrument t)
  | .setter p k q b => inFunction q.boundNames do
    return .setter p (← k.instrument t) (← q.instrument t) (← b.instrument t)
  | .spread p e => return .spread p (← e.instrument t)

def Property.instruments (t : Tracer) : List Property → Trace (List Property)
  | [] => return []
  | p :: r => return (← p.instrument t) :: (← Property.instruments t r)

def Key.instrument (t : Tracer) : Key → Trace Key
  | .computed p e => return .computed p (← e.instrument t)
  | k => return k

def Pat.instrument (t : Tracer) : Pat → Trace Pat
  | .ident n => return .ident n
  | .elision => return .elision
  | .array p items => return .array p (← Pat.instruments t items)
  | .object p members => return .object p (← PatProperty.instruments t members)
  | .rest p q => return .rest p (← q.instrument t)
  | .withDefault p q e => return .withDefault p (← q.instrument t) (← e.instrument t)
  | .expr e => return .expr (← e.instrument t)

def Pat.instruments (t : Tracer) : List Pat → Trace (List Pat)
  | [] => return []
  | q :: r => return (← q.instrument t) :: (← Pat.instruments t r)

def PatProperty.instrument (t : Tracer) : PatProperty → Trace PatProperty
  | .keyValue k q => return .keyValue (← k.instrument t) (← q.instrument t)
  | .shorthand p n e => return .shorthand p n (← Expr.instrument? t e)
  | .rest p q => return .rest p (← q.instrument t)

def PatProperty.instruments (t : Tracer) : List PatProperty → Trace (List PatProperty)
  | [] => return []
  | p :: r => return (← p.instrument t) :: (← PatProperty.instruments t r)

def Function.instrument (t : Tracer) : Function → Trace Function
  | .mk p a g ds ps b => do
    let names := Param.boundNamesOf ps
    inFunction names do
      let ds ← Expr.instruments t ds
      let ps ← Param.instruments t ps
      return .mk p a g ds ps (← Block.instrumentBody? t p names b)

/-- The body of a function that was read at a place. -/
def Block.instrumentBody? (t : Tracer) (p : Place) (params : List String) :
    Option Block → Trace (Option Block)
  | none => return none
  | some b => return some (← entering t p params (b.instrument t))

def Param.instrument (t : Tracer) : Param → Trace Param
  | .mk p ds i q => return .mk p (← Expr.instruments t ds) i (← q.instrument t)

def Param.instruments (t : Tracer) : List Param → Trace (List Param)
  | [] => return []
  | p :: r => return (← p.instrument t) :: (← Param.instruments t r)

def ArrowBody.instrument (t : Tracer) (p : Place) (params : List String) : ArrowBody → Trace ArrowBody
  | .block b => return .block (← entering t p params (b.instrument t))
  | .expr e => return .expr (← returning t p params (e.instrument t))

def Block.instrument (t : Tracer) : Block → Trace Block
  | .mk p stmts => inBlock do return .mk p (← Stmt.instruments t stmts)

def Block.instrument? (t : Tracer) : Option Block → Trace (Option Block)
  | none => return none
  | some b => return some (← b.instrument t)

def Class.instrument (t : Tracer) : Class → Trace Class
  | .mk p ds members parent =>
    return .mk p (← Expr.instruments t ds) (← ClassMember.instruments t members)
      (← Expr.instrument? t parent)

def ClassMember.instrument (t : Tracer) : ClassMember → Trace ClassMember
  | .ctor p k ps b => do
    let names := Param.boundNamesOf ps
    inFunction names do
      let ps ← Param.instruments t ps
      return .ctor p k ps (← Block.instrumentBody? t p names b)
  | .method p k kind s e f => return .method p (← k.instrument t) kind s e (← f.instrument t)
  | .property p k s e a v ds =>
    return .property p (← k.instrument t) s e a (← Expr.instrument? t v) (← Expr.instruments t ds)
  | .staticBlock p b => return .staticBlock p (← b.instrument t)
  | .empty p => return .empty p

def ClassMember.instruments (t : Tracer) : List ClassMember → Trace (List ClassMember)
  | [] => return []
  | m :: r => return (← m.instrument t) :: (← ClassMember.instruments t r)

def Stmt.instrument (t : Tracer) : Stmt → Trace Stmt
  | .block b => return .block (← b.instrument t)
  | .withObject p e s => return .withObject p (← e.instrument t) (← s.instrument t)
  | .returnStmt p e => return .returnStmt p (← Expr.instrument? t e)
  | .labeled p l s => return .labeled p l (← s.instrument t)
  | .ifElse p e yes no =>
    return .ifElse p (← e.instrument t) (← yes.instrument t) (← Stmt.instrument? t no)
  | .switchOn p e cases => do
    let e ← e.instrument t
    return .switchOn p e (← inBlock (SwitchCase.instruments t cases))
  | .throwStmt p e => return .throwStmt p (← e.instrument t)
  | .tryStmt p b c f =>
    return .tryStmt p (← b.instrument t) (← Catch.instrument? t c) (← Block.instrument? t f)
  | .whileLoop p e s => return .whileLoop p (← e.instrument t) (← s.instrument t)
  | .doWhileLoop p e s => return .doWhileLoop p (← e.instrument t) (← s.instrument t)
  | .forLoop p h test update s => inBlock do
    declareHead h
    return .forLoop p (← h.instrument t) (← Expr.instrument? t test) (← Expr.instrument? t update)
      (← s.instrument t)
  | .forIn p h e s => inBlock do
    declareHead h
    return .forIn p (← h.instrument t) (← e.instrument t) (← s.instrument t)
  | .forOf p a h e s => inBlock do
    declareHead h
    return .forOf p a (← h.instrument t) (← e.instrument t) (← s.instrument t)
  | .varDecl d => return .varDecl (← d.instrument t)
  | .func n f => return .func n (← f.instrument t)
  | .classDecl n c => return .classDecl n (← c.instrument t)
  | .expr p e => return .expr p (← e.instrument t)
  | .exportDecl p d => return .exportDecl p (← d.instrument t)
  | .exportDefault p e => return .exportDefault p (← e.instrument t)
  | .exportDefaultFunc p n f => return .exportDefaultFunc p n (← f.instrument t)
  | .exportDefaultClass p n c => return .exportDefaultClass p n (← c.instrument t)
  | s => return s

def Stmt.instrument? (t : Tracer) : Option Stmt → Trace (Option Stmt)
  | none => return none
  | some s => return some (← s.instrument t)

/-- Statements, each with the probe that follows it. -/
def Stmt.instruments (t : Tracer) : List Stmt → Trace (List Stmt)
  | [] => return []
  | s :: r => do
    let s ← s.instrument t
    let new ← after t s
    return s :: new ++ (← Stmt.instruments t r)

def VarDecl.instrument (t : Tracer) : VarDecl → Trace VarDecl
  | .mk p k d items => return .mk p k d (← Declarator.instruments t items)

def Declarator.instrument (t : Tracer) : Declarator → Trace Declarator
  | .mk p q e => return .mk p (← q.instrument t) (← Expr.instrument? t e)

def Declarator.instruments (t : Tracer) : List Declarator → Trace (List Declarator)
  | [] => return []
  | d :: r => return (← d.instrument t) :: (← Declarator.instruments t r)

def SwitchCase.instrument (t : Tracer) : SwitchCase → Trace SwitchCase
  | .mk p e stmts => return .mk p (← Expr.instrument? t e) (← Stmt.instruments t stmts)

def SwitchCase.instruments (t : Tracer) : List SwitchCase → Trace (List SwitchCase)
  | [] => return []
  | c :: r => return (← c.instrument t) :: (← SwitchCase.instruments t r)

def Catch.instrument (t : Tracer) : Catch → Trace Catch
  | .mk p q b => inScope (fun s => (s.push .block).declareAll (q.elim [] Pat.boundNames)) do
    return .mk p (← Pat.instrument? t q) (← b.instrument t)

def Catch.instrument? (t : Tracer) : Option Catch → Trace (Option Catch)
  | none => return none
  | some c => return some (← c.instrument t)

def Pat.instrument? (t : Tracer) : Option Pat → Trace (Option Pat)
  | none => return none
  | some q => return some (← q.instrument t)

def LoopHead.instrument (t : Tracer) : LoopHead → Trace LoopHead
  | .none => return .none
  | .varDecl d => return .varDecl (← d.instrument t)
  | .pat q => return .pat (← q.instrument t)
  | .expr e => return .expr (← e.instrument t)

end

/-- A program with its probes, and their sites in the order in which they were made. -/
def Program.instrument (t : Tracer) (p : Program) : Program × List ProbeSite :=
  let run := inScope (·.push .function) (Stmt.instruments t p.body)
  let (stmts, s) := run.run ⟨[], []⟩
  ({ p with body := Stmt.insertAfterDirectives [Probe.fallback] stmts }, s.sites.reverse)

end StepTrace.Script
