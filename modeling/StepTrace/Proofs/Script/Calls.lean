import Mathlib.Algebra.Order.Group.Multiset
import StepTrace.Proofs.Script.Unprobe

/-!
The calls of the recording function in an instrumented program. Sites are noted at one moment of a traversal
and calls are put in at another, so their orders differ; but a traversal notes one site for each call that
it puts in, and puts in one call for each site that it notes. The calls that are there stay, with probes in
their parts.
-/
namespace StepTrace.Script

open Trace

/-! ### The calls of the recording function

Declarations of TypeScript are not looked into: they are gone before probes are put in. -/

mutual

def Expr.calls : Expr → Multiset Expr
  | .template _ _ parts => Expr.callsOf parts
  | .tagged _ tag _ parts => tag.calls + Expr.callsOf parts
  | .array _ items | .sequence _ items => Expr.callsOf items
  | .object _ members => Property.callsOf members
  | .func _ f => f.calls
  | .classExpr _ c => c.calls
  | .arrow _ _ ps b => Pat.callsOf ps + b.calls
  | .unary _ _ e | .update _ _ _ e | .member _ _ e _ | .paren _ e | .await _ e | .spread _ e
  | .ascribed _ _ e => e.calls
  | .binary _ _ l r | .index _ _ l r => l.calls + r.calls
  | .assign _ _ q e => q.calls + e.calls
  | .cond _ a b c => a.calls + b.calls + c.calls
  | .call p l e args =>
    (if e.isIdentOf recordName then {.call p l e args} else 0) + e.calls + Expr.callsOf args
  | .construct _ e _ args => e.calls + Expr.callsOf args
  | .yield _ _ e => Expr.calls? e
  | .element _ _ _ as_ cs => JsxPart.callsOf as_ + JsxPart.callsOf cs
  | .this _ | .superRef _ | .importRef _ | .ident _ | .literal .. | .metaProperty .. | .elision => 0

def Expr.callsOf : List Expr → Multiset Expr
  | [] => 0
  | e :: r => e.calls + Expr.callsOf r

def Expr.calls? : Option Expr → Multiset Expr
  | none => 0
  | some e => e.calls

def JsxPart.calls : JsxPart → Multiset Expr
  | .attribute _ none | .text _ => 0
  | .attribute _ (some v) => v.calls
  | .spread e | .child e => e.calls
  | .container e => Expr.calls? e

def JsxPart.callsOf : List JsxPart → Multiset Expr
  | [] => 0
  | p :: r => p.calls + JsxPart.callsOf r

def Property.calls : Property → Multiset Expr
  | .shorthand _ e => Expr.calls? e
  | .keyValue k e => k.calls + e.calls
  | .method k f => k.calls + f.calls
  | .getter _ k b => k.calls + b.calls
  | .setter _ k q b => k.calls + q.calls + b.calls
  | .spread _ e => e.calls

def Property.callsOf : List Property → Multiset Expr
  | [] => 0
  | p :: r => p.calls + Property.callsOf r

def Key.calls : Key → Multiset Expr
  | .computed _ e => e.calls
  | .name _ | .literal .. => 0

def Pat.calls : Pat → Multiset Expr
  | .ident _ | .elision => 0
  | .array _ items => Pat.callsOf items
  | .object _ members => PatProperty.callsOf members
  | .rest _ q => q.calls
  | .withDefault _ q e => q.calls + e.calls
  | .expr e => e.calls

def Pat.callsOf : List Pat → Multiset Expr
  | [] => 0
  | q :: r => q.calls + Pat.callsOf r

def Pat.calls? : Option Pat → Multiset Expr
  | none => 0
  | some q => q.calls

def PatProperty.calls : PatProperty → Multiset Expr
  | .keyValue k q => k.calls + q.calls
  | .shorthand _ _ e => Expr.calls? e
  | .rest _ q => q.calls

def PatProperty.callsOf : List PatProperty → Multiset Expr
  | [] => 0
  | p :: r => p.calls + PatProperty.callsOf r

def Function.calls : Function → Multiset Expr
  | .mk _ _ _ ds ps b => Expr.callsOf ds + Param.callsOf ps + Block.calls? b

def Param.calls : Param → Multiset Expr
  | .mk _ ds _ q => Expr.callsOf ds + q.calls

def Param.callsOf : List Param → Multiset Expr
  | [] => 0
  | p :: r => p.calls + Param.callsOf r

def ArrowBody.calls : ArrowBody → Multiset Expr
  | .block b => b.calls
  | .expr e => e.calls

def Block.calls : Block → Multiset Expr
  | .mk _ stmts => Stmt.callsOf stmts

def Block.calls? : Option Block → Multiset Expr
  | none => 0
  | some b => b.calls

def Class.calls : Class → Multiset Expr
  | .mk _ ds members parent => Expr.callsOf ds + ClassMember.callsOf members + Expr.calls? parent

def ClassMember.calls : ClassMember → Multiset Expr
  | .ctor _ _ ps b => Param.callsOf ps + Block.calls? b
  | .method _ k _ _ _ f => k.calls + f.calls
  | .property _ k _ _ _ v ds => k.calls + Expr.calls? v + Expr.callsOf ds
  | .staticBlock _ b => b.calls
  | .empty _ => 0

def ClassMember.callsOf : List ClassMember → Multiset Expr
  | [] => 0
  | m :: r => m.calls + ClassMember.callsOf r

def Stmt.calls : Stmt → Multiset Expr
  | .block b => b.calls
  | .withObject _ e s | .whileLoop _ e s | .doWhileLoop _ e s => e.calls + s.calls
  | .returnStmt _ e => Expr.calls? e
  | .labeled _ _ s | .exportDecl _ s => s.calls
  | .ifElse _ e yes no => e.calls + yes.calls + Stmt.calls? no
  | .switchOn _ e cases => e.calls + SwitchCase.callsOf cases
  | .throwStmt _ e | .expr _ e | .exportDefault _ e => e.calls
  | .tryStmt _ b c f => b.calls + Catch.calls? c + Block.calls? f
  | .forLoop _ h test update s => h.calls + Expr.calls? test + Expr.calls? update + s.calls
  | .forIn _ h e s | .forOf _ _ h e s => h.calls + e.calls + s.calls
  | .varDecl d => d.calls
  | .func _ f | .exportDefaultFunc _ _ f => f.calls
  | .classDecl _ c | .exportDefaultClass _ _ c => c.calls
  | .empty _ | .debugger _ | .breakTo .. | .continueTo .. | .importNames .. | .exportNames ..
  | .exportAll .. | .typed _ => 0

def Stmt.calls? : Option Stmt → Multiset Expr
  | none => 0
  | some s => s.calls

def Stmt.callsOf : List Stmt → Multiset Expr
  | [] => 0
  | s :: r => s.calls + Stmt.callsOf r

def VarDecl.calls : VarDecl → Multiset Expr
  | .mk _ _ _ items => Declarator.callsOf items

def Declarator.calls : Declarator → Multiset Expr
  | .mk _ q e => q.calls + Expr.calls? e

def Declarator.callsOf : List Declarator → Multiset Expr
  | [] => 0
  | d :: r => d.calls + Declarator.callsOf r

def SwitchCase.calls : SwitchCase → Multiset Expr
  | .mk _ e stmts => Expr.calls? e + Stmt.callsOf stmts

def SwitchCase.callsOf : List SwitchCase → Multiset Expr
  | [] => 0
  | c :: r => c.calls + SwitchCase.callsOf r

def Catch.calls : Catch → Multiset Expr
  | .mk _ q b => Pat.calls? q + b.calls

def Catch.calls? : Option Catch → Multiset Expr
  | none => 0
  | some c => c.calls

def LoopHead.calls : LoopHead → Multiset Expr
  | .none => 0
  | .varDecl d => d.calls
  | .pat q => q.calls
  | .expr e => e.calls

end

/-- The calls of the recording function anywhere in a program. -/
def Program.calls (p : Program) : Multiset Expr := Stmt.callsOf p.body

theorem callsOf_getters (names : List String) : Property.callsOf (names.map Probe.getter) = 0 := by
  induction names with
  | nil => rfl
  | cons name r ih => exact (congrArg _ ih).trans (add_zero _)

/-- The call of a probe is one call. -/
theorem calls_call (file : String) (s : ProbeSite) : (Probe.call file s).calls = {Probe.call file s} := by
  have hrecord : (Probe.ident recordName).isIdentOf recordName = true := by decide
  rw [Probe.call, Expr.calls, if_pos hrecord]
  simp [Expr.callsOf, Expr.calls, Probe.ident, Probe.number, callsOf_getters]

theorem Stmt.callsOf_append (a b : List Stmt) :
    Stmt.callsOf (a ++ b) = Stmt.callsOf a + Stmt.callsOf b := by
  induction a with
  | nil => exact (zero_add _).symm
  | cons s a ih => exact congr(s.calls + $ih).trans (add_assoc _ _ _).symm

/-- What is put after the directives adds its calls to the others. -/
theorem callsOf_insertAfterDirectives (new ss : List Stmt) :
    Stmt.callsOf (Stmt.insertAfterDirectives new ss) = Stmt.callsOf new + Stmt.callsOf ss := by
  have hsplit := Stmt.callsOf_append (ss.takeWhile Stmt.isDirective) (ss.dropWhile Stmt.isDirective)
  rw [List.takeWhile_append_dropWhile] at hsplit
  rw [Stmt.insertAfterDirectives, Stmt.callsOf_append, Stmt.callsOf_append, hsplit,
    add_comm (Stmt.callsOf (ss.takeWhile Stmt.isDirective)), add_assoc]

/-- Traversing makes nothing the recording function. -/
theorem isIdentOf_instrument (t : Tracer) (w : String) (e : Expr) (s : Tracing) :
    (result (e.instrument t) s).isIdentOf w = e.isIdentOf w := by
  cases e <;> rfl

/-! ### Traversals that note what they put in -/

namespace Trace

/-- The calls that the sites so far stand for. -/
def told (t : Tracer) (s : Tracing) : Multiset Expr :=
  (s.sites : Multiset ProbeSite).map (Probe.call t.file)

variable {ι : Type}

/-- What is seen of a call is the same when its parts have been traversed. -/
def KeepsCall (t : Tracer) (view : Expr → ι) : Expr → Prop
  | .call p l e args => ∀ s s',
    view (.call p l (result (e.instrument t) s) (result (Expr.instruments t args) s')) =
      view (.call p l e args)
  | _ => True

/-- So it is for all of some calls. -/
def KeepsAll (t : Tracer) (view : Expr → ι) (calls : Multiset Expr) : Prop :=
  ∀ c ∈ calls, KeepsCall t view c

theorem keepsAll_add {t : Tracer} {view : Expr → ι} {a b : Multiset Expr} :
    KeepsAll t view (a + b) ↔ KeepsAll t view a ∧ KeepsAll t view b := by
  simp only [KeepsAll, Multiset.mem_add, or_imp, forall_and]

/-- From every state a traversal notes the sites of the calls that it adds to the known ones, and no others,
as far as can be seen of them. -/
def Shows {α : Type} (view : Expr → ι) (t : Tracer) (known : Multiset Expr) (m : Trace α)
    (calls : α → Multiset Expr) : Prop :=
  ∀ s, (told t s + calls (m s).1).map view = (told t (m s).2 + known).map view

variable {α β : Type} {view : Expr → ι} {t : Tracer} {known : Multiset Expr} {m : Trace α}
  {k : α → Trace β} {calls : α → Multiset Expr} {calls' : β → Multiset Expr}

theorem Shows.pure {a : α} (h : (calls a).map view = known.map view) :
    Shows view t known (pure a) calls := by
  intro s
  rw [Multiset.map_add, Multiset.map_add]
  exact congrArg ((told t s).map view + ·) h

theorem Shows.bind (h : Shows view t known m calls)
    (hk : ∀ s, Shows view t (calls (result m s)) (k (result m s)) calls') :
    Shows view t known (m >>= k) calls' := by
  intro s
  let s' := (m s).2
  let b := k (m s).1 s'
  have hfirst := h s
  have hsecond : (told t s' + calls' b.1).map view = (told t b.2 + calls (m s).1).map view := hk s s'
  change (told t s + calls' b.1).map view = (told t b.2 + known).map view
  simp only [Multiset.map_add] at hfirst hsecond ⊢
  refine add_right_cancel (b := (calls (m s).1).map view) ?_
  calc
    (told t s).map view + (calls' b.1).map view + (calls (m s).1).map view
        = (told t s).map view + (calls (m s).1).map view + (calls' b.1).map view := add_right_comm ..
    _ = (told t s').map view + known.map view + (calls' b.1).map view := by rw [hfirst]
    _ = (told t s').map view + (calls' b.1).map view + known.map view := add_right_comm ..
    _ = (told t b.2).map view + (calls (m s).1).map view + known.map view := by rw [hsecond]
    _ = (told t b.2).map view + known.map view + (calls (m s).1).map view := add_right_comm ..

/-- With more known calls behind the others. -/
theorem Shows.within (h : Shows view t known m calls) (more : Multiset Expr) :
    Shows view t (known + more) m fun a => calls a + more := by
  intro s
  rw [← add_assoc, ← add_assoc, Multiset.map_add, h s, ← Multiset.map_add]

/-- With more known calls before the others. -/
theorem Shows.beyond (h : Shows view t known m calls) (more : Multiset Expr) :
    Shows view t (more + known) m fun a => more + calls a := by
  simpa only [add_comm more] using h.within more

/-- A traversal that adds calls to known ones, which stand behind them. -/
theorem Shows.before (h : Shows view t 0 m calls) (known : Multiset Expr) :
    Shows view t known m fun a => calls a + known := by
  simpa only [zero_add] using h.within known

/-- A traversal that adds calls to known ones, which stand before them. -/
theorem Shows.behind (h : Shows view t 0 m calls) (known : Multiset Expr) :
    Shows view t known m fun a => known + calls a := by
  simpa only [add_zero] using h.beyond known

/-- A first step that notes nothing. -/
theorem Shows.past (h : ∀ s, (m s).2.sites = s.sites) (hk : ∀ a, Shows view t known (k a) calls') :
    Shows view t known (m >>= k) calls' := by
  intro s
  have hsame : told t (m s).2 = told t s := by rw [told, told, h s]
  rw [← hsame]
  exact hk (m s).1 (m s).2

theorem Shows.inScope (enter : ScopeStack → ScopeStack) (h : Shows view t known m calls) :
    Shows view t known (inScope enter m) calls :=
  fun s => h { s with scopes := enter s.scopes }

theorem Shows.inBlock (h : Shows view t known m calls) : Shows view t known (inBlock m) calls :=
  .inScope (·.push .block) h

theorem Shows.inFunction {params : List String} (h : Shows view t known m calls) :
    Shows view t known (inFunction params m) calls :=
  .inScope (·.pushFunction params) h

theorem sites_declareVars (d : VarDecl) (s : Tracing) : (declareVars d s).2.sites = s.sites := rfl

theorem sites_declareHead (head : LoopHead) (s : Tracing) : (declareHead head s).2.sites = s.sites := by
  cases head <;> rfl

/-- A probe is one call and one site, or none of both. -/
theorem shows_probe (t : Tracer) (kind : ProbeKind) (p : Place) (names : List String) :
    Shows view t 0 (probe t kind p names) Expr.calls? := by
  intro s
  cases p with
  | none => exact rfl
  | some span =>
    let site : ProbeSite := ⟨kind, t.position span.start, names⟩
    have htold : told t { s with sites := site :: s.sites } = Probe.call t.file site ::ₘ told t s :=
      Multiset.map_cons (Probe.call t.file) site s.sites
    refine congrArg (Multiset.map view) ?_
    calc
      told t s + (Probe.call t.file site).calls = told t s + {Probe.call t.file site} := by
        rw [calls_call]
      _ = Probe.call t.file site ::ₘ told t s := by rw [add_comm, Multiset.singleton_add]
      _ = _ := htold.symm.trans (add_zero _).symm

theorem callsOf_probe (c : Option Expr) :
    Stmt.callsOf (c.map Probe.stmt).toList = Expr.calls? c := by
  cases c with
  | none => rfl
  | some c => exact add_zero _

theorem shows_stmtProbe (t : Tracer) (p : Place) : Shows view t 0 (stmtProbe t p) Stmt.callsOf := by
  intro s
  have hprobe : Shows view t 0 (probe t .statement p s.scopes.visible) Expr.calls? :=
    shows_probe t .statement p s.scopes.visible
  have hs := hprobe s
  rw [← callsOf_probe] at hs
  exact hs

theorem shows_after (t : Tracer) (st : Stmt) : Shows view t 0 (after t st) Stmt.callsOf := by
  unfold after
  split
  · next d =>
    refine .past (sites_declareVars d) fun _ => ?_
    split
    · exact .pure rfl
    · exact shows_stmtProbe t _
  · next p d => exact .past (sites_declareVars d) fun _ => shows_stmtProbe t p
  · split
    · exact .pure rfl
    · exact shows_stmtProbe t _
  · exact .pure rfl

theorem shows_entering (p : Place) (names : List String) {body : Trace Block}
    (h : Shows view t known body Block.calls) :
    Shows view t known (entering t p names body) Block.calls := by
  refine ((shows_probe t .entry p names).before _).bind fun s => ?_
  refine (h.beyond _).bind fun s' => ?_
  cases result body s' with
  | mk q ss =>
    refine .pure ?_
    rw [Block.calls, callsOf_insertAfterDirectives, callsOf_probe]
    rfl

theorem shows_returning (p : Place) (names : List String) {value : Trace Expr}
    (h : Shows view t known value Expr.calls) :
    Shows view t known (returning t p names value) Expr.calls := by
  refine ((shows_probe t .implicitReturn p names).before _).bind fun s => ?_
  refine (h.beyond _).bind fun s' => .pure ?_
  cases result (probe t .implicitReturn p names) s with
  | none => exact congrArg (Multiset.map view) (zero_add _).symm
  | some c => exact congrArg (Multiset.map view) congr(c.calls + $(add_zero _))

end Trace

section Parts

variable {ι : Type} {view : Expr → ι}

/-! ### The parts of a program -/

mutual

theorem Expr.shows_instrument (t : Tracer) (e : Expr) (h : KeepsAll t view e.calls) :
    Shows view t e.calls (e.instrument t) Expr.calls := by
  cases e with
  | template p chunks parts =>
    exact (Expr.shows_instruments t parts h).bind fun _ => .pure rfl
  | tagged p tag chunks parts =>
    obtain ⟨htag, hparts⟩ := keepsAll_add.1 h
    refine ((Expr.shows_instrument t tag htag).within _).bind fun _ => ?_
    exact ((Expr.shows_instruments t parts hparts).beyond _).bind fun _ => .pure rfl
  | array p items | sequence p items =>
    exact (Expr.shows_instruments t items h).bind fun _ => .pure rfl
  | object p members => exact (Property.shows_instruments t members h).bind fun _ => .pure rfl
  | func n f => exact (Function.shows_instrument t f h).bind fun _ => .pure rfl
  | classExpr n c => exact (Class.shows_instrument t c h).bind fun _ => .pure rfl
  | arrow p a ps b =>
    obtain ⟨hps, hb⟩ := keepsAll_add.1 h
    refine Shows.inFunction (((Pat.shows_instruments t ps hps).within _).bind fun _ => ?_)
    exact ((ArrowBody.shows_instrument t b p _ hb).beyond _).bind fun _ => .pure rfl
  | unary p op e | update p op pre e | member p l e n | paren p e | await p e | spread p e
  | ascribed p how e =>
    exact (Expr.shows_instrument t e h).bind fun _ => .pure rfl
  | binary p op l r | index p op l r =>
    obtain ⟨hl, hr⟩ := keepsAll_add.1 h
    refine ((Expr.shows_instrument t l hl).within _).bind fun _ => ?_
    exact ((Expr.shows_instrument t r hr).beyond _).bind fun _ => .pure rfl
  | assign p op q e =>
    obtain ⟨hq, he⟩ := keepsAll_add.1 h
    refine ((Pat.shows_instrument t q hq).within _).bind fun _ => ?_
    exact ((Expr.shows_instrument t e he).beyond _).bind fun _ => .pure rfl
  | cond p a b c =>
    obtain ⟨hab, hc⟩ := keepsAll_add.1 h
    obtain ⟨ha, hb⟩ := keepsAll_add.1 hab
    refine (((Expr.shows_instrument t a ha).within _).within _).bind fun _ => ?_
    refine (((Expr.shows_instrument t b hb).beyond _).within _).bind fun _ => ?_
    exact ((Expr.shows_instrument t c hc).beyond _).bind fun _ => .pure rfl
  | call p l e args =>
    obtain ⟨hcall, hargs⟩ := keepsAll_add.1 h
    obtain ⟨hown, he⟩ := keepsAll_add.1 hcall
    refine (((Expr.shows_instrument t e he).beyond _).within _).bind fun s => ?_
    refine ((Expr.shows_instruments t args hargs).beyond _).bind fun s' => .pure ?_
    -- If the call is one of those that are counted, it still is with its parts traversed.
    rw [Expr.calls, isIdentOf_instrument]
    split
    · next hid =>
      rw [if_pos hid] at hown
      have hview := hown _ (Multiset.mem_singleton_self _) s s'
      simp only [Multiset.map_add, Multiset.map_singleton, hview]
    · rfl
  | construct p e hasArgs args =>
    obtain ⟨he, hargs⟩ := keepsAll_add.1 h
    refine ((Expr.shows_instrument t e he).within _).bind fun _ => ?_
    exact ((Expr.shows_instruments t args hargs).beyond _).bind fun _ => .pure rfl
  | yield p d e => exact (Expr.shows_instrument? t e h).bind fun _ => .pure rfl
  | element p n c as_ cs =>
    obtain ⟨has, hcs⟩ := keepsAll_add.1 h
    refine ((JsxPart.shows_instruments t as_ has).within _).bind fun _ => ?_
    exact ((JsxPart.shows_instruments t cs hcs).beyond _).bind fun _ => .pure rfl
  | this | superRef | importRef | ident | literal | metaProperty | elision => exact .pure rfl

theorem Expr.shows_instruments (t : Tracer) (es : List Expr)
    (h : KeepsAll t view (Expr.callsOf es)) :
    Shows view t (Expr.callsOf es) (Expr.instruments t es) Expr.callsOf := by
  cases es with
  | nil => exact .pure rfl
  | cons e r =>
    obtain ⟨he, hr⟩ := keepsAll_add.1 h
    refine ((Expr.shows_instrument t e he).within _).bind fun _ => ?_
    exact ((Expr.shows_instruments t r hr).beyond _).bind fun _ => .pure rfl

theorem Expr.shows_instrument? (t : Tracer) (e : Option Expr)
    (h : KeepsAll t view (Expr.calls? e)) :
    Shows view t (Expr.calls? e) (Expr.instrument? t e) Expr.calls? := by
  cases e with
  | none => exact .pure rfl
  | some e => exact (Expr.shows_instrument t e h).bind fun _ => .pure rfl

theorem JsxPart.shows_instrument (t : Tracer) (p : JsxPart) (h : KeepsAll t view p.calls) :
    Shows view t p.calls (p.instrument t) JsxPart.calls := by
  match p with
  | .attribute n none | .text v => exact .pure rfl
  | .attribute n (some v) => exact (JsxPart.shows_instrument t v h).bind fun _ => .pure rfl
  | .spread e | .child e => exact (Expr.shows_instrument t e h).bind fun _ => .pure rfl
  | .container e => exact (Expr.shows_instrument? t e h).bind fun _ => .pure rfl

theorem JsxPart.shows_instruments (t : Tracer) (ps : List JsxPart)
    (h : KeepsAll t view (JsxPart.callsOf ps)) :
    Shows view t (JsxPart.callsOf ps) (JsxPart.instruments t ps) JsxPart.callsOf := by
  cases ps with
  | nil => exact .pure rfl
  | cons p r =>
    obtain ⟨hp, hr⟩ := keepsAll_add.1 h
    refine ((JsxPart.shows_instrument t p hp).within _).bind fun _ => ?_
    exact ((JsxPart.shows_instruments t r hr).beyond _).bind fun _ => .pure rfl

theorem Property.shows_instrument (t : Tracer) (p : Property) (h : KeepsAll t view p.calls) :
    Shows view t p.calls (p.instrument t) Property.calls := by
  cases p with
  | shorthand n e => exact (Expr.shows_instrument? t e h).bind fun _ => .pure rfl
  | keyValue k e =>
    obtain ⟨hk, he⟩ := keepsAll_add.1 h
    refine ((Key.shows_instrument t k hk).within _).bind fun _ => ?_
    exact ((Expr.shows_instrument t e he).beyond _).bind fun _ => .pure rfl
  | method k f =>
    obtain ⟨hk, hf⟩ := keepsAll_add.1 h
    refine ((Key.shows_instrument t k hk).within _).bind fun _ => ?_
    exact ((Function.shows_instrument t f hf).beyond _).bind fun _ => .pure rfl
  | getter p k b =>
    obtain ⟨hk, hb⟩ := keepsAll_add.1 h
    refine Shows.inFunction (((Key.shows_instrument t k hk).within _).bind fun _ => ?_)
    exact ((Block.shows_instrument t b hb).beyond _).bind fun _ => .pure rfl
  | setter p k q b =>
    obtain ⟨hkq, hb⟩ := keepsAll_add.1 h
    obtain ⟨hk, hq⟩ := keepsAll_add.1 hkq
    refine Shows.inFunction ((((Key.shows_instrument t k hk).within _).within _).bind fun _ => ?_)
    refine (((Pat.shows_instrument t q hq).beyond _).within _).bind fun _ => ?_
    exact ((Block.shows_instrument t b hb).beyond _).bind fun _ => .pure rfl
  | spread p e => exact (Expr.shows_instrument t e h).bind fun _ => .pure rfl

theorem Property.shows_instruments (t : Tracer) (ps : List Property)
    (h : KeepsAll t view (Property.callsOf ps)) :
    Shows view t (Property.callsOf ps) (Property.instruments t ps) Property.callsOf := by
  cases ps with
  | nil => exact .pure rfl
  | cons p r =>
    obtain ⟨hp, hr⟩ := keepsAll_add.1 h
    refine ((Property.shows_instrument t p hp).within _).bind fun _ => ?_
    exact ((Property.shows_instruments t r hr).beyond _).bind fun _ => .pure rfl

theorem Key.shows_instrument (t : Tracer) (k : Key) (h : KeepsAll t view k.calls) :
    Shows view t k.calls (k.instrument t) Key.calls := by
  cases k with
  | computed p e => exact (Expr.shows_instrument t e h).bind fun _ => .pure rfl
  | name | literal => exact .pure rfl

theorem Pat.shows_instrument (t : Tracer) (q : Pat) (h : KeepsAll t view q.calls) :
    Shows view t q.calls (q.instrument t) Pat.calls := by
  cases q with
  | ident | elision => exact .pure rfl
  | array p items => exact (Pat.shows_instruments t items h).bind fun _ => .pure rfl
  | object p members => exact (PatProperty.shows_instruments t members h).bind fun _ => .pure rfl
  | rest p q => exact (Pat.shows_instrument t q h).bind fun _ => .pure rfl
  | withDefault p q e =>
    obtain ⟨hq, he⟩ := keepsAll_add.1 h
    refine ((Pat.shows_instrument t q hq).within _).bind fun _ => ?_
    exact ((Expr.shows_instrument t e he).beyond _).bind fun _ => .pure rfl
  | expr e => exact (Expr.shows_instrument t e h).bind fun _ => .pure rfl

theorem Pat.shows_instruments (t : Tracer) (qs : List Pat) (h : KeepsAll t view (Pat.callsOf qs)) :
    Shows view t (Pat.callsOf qs) (Pat.instruments t qs) Pat.callsOf := by
  cases qs with
  | nil => exact .pure rfl
  | cons q r =>
    obtain ⟨hq, hr⟩ := keepsAll_add.1 h
    refine ((Pat.shows_instrument t q hq).within _).bind fun _ => ?_
    exact ((Pat.shows_instruments t r hr).beyond _).bind fun _ => .pure rfl

theorem Pat.shows_instrument? (t : Tracer) (q : Option Pat) (h : KeepsAll t view (Pat.calls? q)) :
    Shows view t (Pat.calls? q) (Pat.instrument? t q) Pat.calls? := by
  cases q with
  | none => exact .pure rfl
  | some q => exact (Pat.shows_instrument t q h).bind fun _ => .pure rfl

theorem PatProperty.shows_instrument (t : Tracer) (p : PatProperty)
    (h : KeepsAll t view p.calls) : Shows view t p.calls (p.instrument t) PatProperty.calls := by
  cases p with
  | keyValue k q =>
    obtain ⟨hk, hq⟩ := keepsAll_add.1 h
    refine ((Key.shows_instrument t k hk).within _).bind fun _ => ?_
    exact ((Pat.shows_instrument t q hq).beyond _).bind fun _ => .pure rfl
  | shorthand p n e => exact (Expr.shows_instrument? t e h).bind fun _ => .pure rfl
  | rest p q => exact (Pat.shows_instrument t q h).bind fun _ => .pure rfl

theorem PatProperty.shows_instruments (t : Tracer) (ps : List PatProperty)
    (h : KeepsAll t view (PatProperty.callsOf ps)) :
    Shows view t (PatProperty.callsOf ps) (PatProperty.instruments t ps) PatProperty.callsOf := by
  cases ps with
  | nil => exact .pure rfl
  | cons p r =>
    obtain ⟨hp, hr⟩ := keepsAll_add.1 h
    refine ((PatProperty.shows_instrument t p hp).within _).bind fun _ => ?_
    exact ((PatProperty.shows_instruments t r hr).beyond _).bind fun _ => .pure rfl

theorem Function.shows_instrument (t : Tracer) (f : Function) (h : KeepsAll t view f.calls) :
    Shows view t f.calls (f.instrument t) Function.calls := by
  cases f with
  | mk p a g ds ps b =>
    obtain ⟨hdps, hb⟩ := keepsAll_add.1 h
    obtain ⟨hds, hps⟩ := keepsAll_add.1 hdps
    refine Shows.inFunction ((((Expr.shows_instruments t ds hds).within _).within _).bind fun _ => ?_)
    refine (((Param.shows_instruments t ps hps).beyond _).within _).bind fun _ => ?_
    exact ((Block.shows_instrumentBody? t b p _ hb).beyond _).bind fun _ => .pure rfl

theorem Block.shows_instrumentBody? (t : Tracer) (b : Option Block) (p : Place)
    (params : List String) (h : KeepsAll t view (Block.calls? b)) :
    Shows view t (Block.calls? b) (Block.instrumentBody? t p params b) Block.calls? := by
  cases b with
  | none => exact .pure rfl
  | some b =>
    exact (shows_entering p params (Block.shows_instrument t b h)).bind fun _ => .pure rfl

theorem Param.shows_instrument (t : Tracer) (p : Param) (h : KeepsAll t view p.calls) :
    Shows view t p.calls (p.instrument t) Param.calls := by
  cases p with
  | mk p ds i q =>
    obtain ⟨hds, hq⟩ := keepsAll_add.1 h
    refine ((Expr.shows_instruments t ds hds).within _).bind fun _ => ?_
    exact ((Pat.shows_instrument t q hq).beyond _).bind fun _ => .pure rfl

theorem Param.shows_instruments (t : Tracer) (ps : List Param)
    (h : KeepsAll t view (Param.callsOf ps)) :
    Shows view t (Param.callsOf ps) (Param.instruments t ps) Param.callsOf := by
  cases ps with
  | nil => exact .pure rfl
  | cons p r =>
    obtain ⟨hp, hr⟩ := keepsAll_add.1 h
    refine ((Param.shows_instrument t p hp).within _).bind fun _ => ?_
    exact ((Param.shows_instruments t r hr).beyond _).bind fun _ => .pure rfl

theorem ArrowBody.shows_instrument (t : Tracer) (b : ArrowBody) (p : Place) (params : List String)
    (h : KeepsAll t view b.calls) : Shows view t b.calls (b.instrument t p params) ArrowBody.calls := by
  cases b with
  | block b => exact (shows_entering p params (Block.shows_instrument t b h)).bind fun _ => .pure rfl
  | expr e => exact (shows_returning p params (Expr.shows_instrument t e h)).bind fun _ => .pure rfl

theorem Block.shows_instrument (t : Tracer) (b : Block) (h : KeepsAll t view b.calls) :
    Shows view t b.calls (b.instrument t) Block.calls := by
  cases b with
  | mk p stmts => exact Shows.inBlock ((Stmt.shows_instruments t stmts h).bind fun _ => .pure rfl)

theorem Block.shows_instrument? (t : Tracer) (b : Option Block)
    (h : KeepsAll t view (Block.calls? b)) :
    Shows view t (Block.calls? b) (Block.instrument? t b) Block.calls? := by
  cases b with
  | none => exact .pure rfl
  | some b => exact (Block.shows_instrument t b h).bind fun _ => .pure rfl

theorem Class.shows_instrument (t : Tracer) (c : Class) (h : KeepsAll t view c.calls) :
    Shows view t c.calls (c.instrument t) Class.calls := by
  cases c with
  | mk p ds members parent =>
    obtain ⟨hdm, hparent⟩ := keepsAll_add.1 h
    obtain ⟨hds, hmembers⟩ := keepsAll_add.1 hdm
    refine (((Expr.shows_instruments t ds hds).within _).within _).bind fun _ => ?_
    refine (((ClassMember.shows_instruments t members hmembers).beyond _).within _).bind fun _ => ?_
    exact ((Expr.shows_instrument? t parent hparent).beyond _).bind fun _ => .pure rfl

theorem ClassMember.shows_instrument (t : Tracer) (m : ClassMember)
    (h : KeepsAll t view m.calls) : Shows view t m.calls (m.instrument t) ClassMember.calls := by
  cases m with
  | ctor p k ps b =>
    obtain ⟨hps, hb⟩ := keepsAll_add.1 h
    refine Shows.inFunction (((Param.shows_instruments t ps hps).within _).bind fun _ => ?_)
    exact ((Block.shows_instrumentBody? t b p _ hb).beyond _).bind fun _ => .pure rfl
  | method p k kind st e f =>
    obtain ⟨hk, hf⟩ := keepsAll_add.1 h
    refine ((Key.shows_instrument t k hk).within _).bind fun _ => ?_
    exact ((Function.shows_instrument t f hf).beyond _).bind fun _ => .pure rfl
  | property p k st e a v ds =>
    obtain ⟨hkv, hds⟩ := keepsAll_add.1 h
    obtain ⟨hk, hv⟩ := keepsAll_add.1 hkv
    refine (((Key.shows_instrument t k hk).within _).within _).bind fun _ => ?_
    refine (((Expr.shows_instrument? t v hv).beyond _).within _).bind fun _ => ?_
    exact ((Expr.shows_instruments t ds hds).beyond _).bind fun _ => .pure rfl
  | staticBlock p b => exact (Block.shows_instrument t b h).bind fun _ => .pure rfl
  | empty p => exact .pure rfl

theorem ClassMember.shows_instruments (t : Tracer) (ms : List ClassMember)
    (h : KeepsAll t view (ClassMember.callsOf ms)) :
    Shows view t (ClassMember.callsOf ms) (ClassMember.instruments t ms) ClassMember.callsOf := by
  cases ms with
  | nil => exact .pure rfl
  | cons m r =>
    obtain ⟨hm, hr⟩ := keepsAll_add.1 h
    refine ((ClassMember.shows_instrument t m hm).within _).bind fun _ => ?_
    exact ((ClassMember.shows_instruments t r hr).beyond _).bind fun _ => .pure rfl

theorem Stmt.shows_instrument (t : Tracer) (st : Stmt) (h : KeepsAll t view st.calls) :
    Shows view t st.calls (st.instrument t) Stmt.calls := by
  cases st with
  | block b => exact (Block.shows_instrument t b h).bind fun _ => .pure rfl
  | withObject p e s | whileLoop p e s | doWhileLoop p e s =>
    obtain ⟨he, hs⟩ := keepsAll_add.1 h
    refine ((Expr.shows_instrument t e he).within _).bind fun _ => ?_
    exact ((Stmt.shows_instrument t s hs).beyond _).bind fun _ => .pure rfl
  | returnStmt p e => exact (Expr.shows_instrument? t e h).bind fun _ => .pure rfl
  | labeled p l s | exportDecl p s => exact (Stmt.shows_instrument t s h).bind fun _ => .pure rfl
  | ifElse p e yes no =>
    obtain ⟨hey, hno⟩ := keepsAll_add.1 h
    obtain ⟨he, hyes⟩ := keepsAll_add.1 hey
    refine (((Expr.shows_instrument t e he).within _).within _).bind fun _ => ?_
    refine (((Stmt.shows_instrument t yes hyes).beyond _).within _).bind fun _ => ?_
    exact ((Stmt.shows_instrument? t no hno).beyond _).bind fun _ => .pure rfl
  | switchOn p e cases =>
    obtain ⟨he, hcases⟩ := keepsAll_add.1 h
    refine ((Expr.shows_instrument t e he).within _).bind fun _ => ?_
    exact ((SwitchCase.shows_instruments t cases hcases).inBlock.beyond _).bind fun _ => .pure rfl
  | throwStmt p e | expr p e | exportDefault p e =>
    exact (Expr.shows_instrument t e h).bind fun _ => .pure rfl
  | tryStmt p b c f =>
    obtain ⟨hbc, hf⟩ := keepsAll_add.1 h
    obtain ⟨hb, hc⟩ := keepsAll_add.1 hbc
    refine (((Block.shows_instrument t b hb).within _).within _).bind fun _ => ?_
    refine (((Catch.shows_instrument? t c hc).beyond _).within _).bind fun _ => ?_
    exact ((Block.shows_instrument? t f hf).beyond _).bind fun _ => .pure rfl
  | forLoop p head test update s =>
    obtain ⟨hhtu, hs⟩ := keepsAll_add.1 h
    obtain ⟨hht, hupdate⟩ := keepsAll_add.1 hhtu
    obtain ⟨hhead, htest⟩ := keepsAll_add.1 hht
    refine Shows.inBlock (.past (sites_declareHead head) fun _ => ?_)
    refine ((((LoopHead.shows_instrument t head hhead).within _).within _).within _).bind fun _ => ?_
    refine ((((Expr.shows_instrument? t test htest).beyond _).within _).within _).bind fun _ => ?_
    refine (((Expr.shows_instrument? t update hupdate).beyond _).within _).bind fun _ => ?_
    exact ((Stmt.shows_instrument t s hs).beyond _).bind fun _ => .pure rfl
  | forIn p head e s | forOf p a head e s =>
    obtain ⟨hhe, hs⟩ := keepsAll_add.1 h
    obtain ⟨hhead, he⟩ := keepsAll_add.1 hhe
    refine Shows.inBlock (.past (sites_declareHead head) fun _ => ?_)
    refine (((LoopHead.shows_instrument t head hhead).within _).within _).bind fun _ => ?_
    refine (((Expr.shows_instrument t e he).beyond _).within _).bind fun _ => ?_
    exact ((Stmt.shows_instrument t s hs).beyond _).bind fun _ => .pure rfl
  | varDecl d => exact (VarDecl.shows_instrument t d h).bind fun _ => .pure rfl
  | func n f | exportDefaultFunc p n f =>
    exact (Function.shows_instrument t f h).bind fun _ => .pure rfl
  | classDecl n c | exportDefaultClass p n c =>
    exact (Class.shows_instrument t c h).bind fun _ => .pure rfl
  | empty | debugger | breakTo | continueTo | importNames | exportNames | exportAll | typed =>
    exact .pure rfl

theorem Stmt.shows_instrument? (t : Tracer) (s : Option Stmt)
    (h : KeepsAll t view (Stmt.calls? s)) :
    Shows view t (Stmt.calls? s) (Stmt.instrument? t s) Stmt.calls? := by
  cases s with
  | none => exact .pure rfl
  | some s => exact (Stmt.shows_instrument t s h).bind fun _ => .pure rfl

theorem Stmt.shows_instruments (t : Tracer) (ss : List Stmt)
    (h : KeepsAll t view (Stmt.callsOf ss)) :
    Shows view t (Stmt.callsOf ss) (Stmt.instruments t ss) Stmt.callsOf := by
  cases ss with
  | nil => exact .pure rfl
  | cons st r =>
    obtain ⟨hst, hr⟩ := keepsAll_add.1 h
    refine ((Stmt.shows_instrument t st hst).within _).bind fun _ => ?_
    refine (((shows_after t _).behind _).within _).bind fun _ => ?_
    refine ((Stmt.shows_instruments t r hr).beyond _).bind fun _ => .pure ?_
    refine congrArg (Multiset.map view) ?_
    exact congr(_ + $(Stmt.callsOf_append ..)).trans (add_assoc ..).symm

theorem VarDecl.shows_instrument (t : Tracer) (d : VarDecl) (h : KeepsAll t view d.calls) :
    Shows view t d.calls (d.instrument t) VarDecl.calls := by
  cases d with
  | mk p k d items => exact (Declarator.shows_instruments t items h).bind fun _ => .pure rfl

theorem Declarator.shows_instrument (t : Tracer) (d : Declarator) (h : KeepsAll t view d.calls) :
    Shows view t d.calls (d.instrument t) Declarator.calls := by
  cases d with
  | mk p q e =>
    obtain ⟨hq, he⟩ := keepsAll_add.1 h
    refine ((Pat.shows_instrument t q hq).within _).bind fun _ => ?_
    exact ((Expr.shows_instrument? t e he).beyond _).bind fun _ => .pure rfl

theorem Declarator.shows_instruments (t : Tracer) (ds : List Declarator)
    (h : KeepsAll t view (Declarator.callsOf ds)) :
    Shows view t (Declarator.callsOf ds) (Declarator.instruments t ds) Declarator.callsOf := by
  cases ds with
  | nil => exact .pure rfl
  | cons d r =>
    obtain ⟨hd, hr⟩ := keepsAll_add.1 h
    refine ((Declarator.shows_instrument t d hd).within _).bind fun _ => ?_
    exact ((Declarator.shows_instruments t r hr).beyond _).bind fun _ => .pure rfl

theorem SwitchCase.shows_instrument (t : Tracer) (c : SwitchCase) (h : KeepsAll t view c.calls) :
    Shows view t c.calls (c.instrument t) SwitchCase.calls := by
  cases c with
  | mk p e stmts =>
    obtain ⟨he, hstmts⟩ := keepsAll_add.1 h
    refine ((Expr.shows_instrument? t e he).within _).bind fun _ => ?_
    exact ((Stmt.shows_instruments t stmts hstmts).beyond _).bind fun _ => .pure rfl

theorem SwitchCase.shows_instruments (t : Tracer) (cs : List SwitchCase)
    (h : KeepsAll t view (SwitchCase.callsOf cs)) :
    Shows view t (SwitchCase.callsOf cs) (SwitchCase.instruments t cs) SwitchCase.callsOf := by
  cases cs with
  | nil => exact .pure rfl
  | cons c r =>
    obtain ⟨hc, hr⟩ := keepsAll_add.1 h
    refine ((SwitchCase.shows_instrument t c hc).within _).bind fun _ => ?_
    exact ((SwitchCase.shows_instruments t r hr).beyond _).bind fun _ => .pure rfl

theorem Catch.shows_instrument (t : Tracer) (c : Catch) (h : KeepsAll t view c.calls) :
    Shows view t c.calls (c.instrument t) Catch.calls := by
  cases c with
  | mk p q b =>
    obtain ⟨hq, hb⟩ := keepsAll_add.1 h
    refine Shows.inScope _ (((Pat.shows_instrument? t q hq).within _).bind fun _ => ?_)
    exact ((Block.shows_instrument t b hb).beyond _).bind fun _ => .pure rfl

theorem Catch.shows_instrument? (t : Tracer) (c : Option Catch)
    (h : KeepsAll t view (Catch.calls? c)) :
    Shows view t (Catch.calls? c) (Catch.instrument? t c) Catch.calls? := by
  cases c with
  | none => exact .pure rfl
  | some c => exact (Catch.shows_instrument t c h).bind fun _ => .pure rfl

theorem LoopHead.shows_instrument (t : Tracer) (head : LoopHead) (h : KeepsAll t view head.calls) :
    Shows view t head.calls (head.instrument t) LoopHead.calls := by
  cases head with
  | none => exact .pure rfl
  | varDecl d => exact (VarDecl.shows_instrument t d h).bind fun _ => .pure rfl
  | pat q => exact (Pat.shows_instrument t q h).bind fun _ => .pure rfl
  | expr e => exact (Expr.shows_instrument t e h).bind fun _ => .pure rfl

end

end Parts

/-! ### Whole programs -/

/-- The calls in a program with probes are those that the reported sites stand for, beside the calls that
the program has itself, as far as can be seen of them. -/
theorem Program.shows_instrument {ι : Type} {view : Expr → ι} (t : Tracer) (p : Program)
    (h : KeepsAll t view p.calls) :
    (p.instrument t).1.calls.map view =
      (((p.instrument t).2 : Multiset ProbeSite).map (Probe.call t.file) + p.calls).map view := by
  let run := inScope (·.push .function) (Stmt.instruments t p.body) ⟨[], []⟩
  have hrun : (told t ⟨[], []⟩ + Stmt.callsOf run.1).map view = (told t run.2 + p.calls).map view :=
    (Stmt.shows_instruments t p.body h).inScope (·.push .function) ⟨[], []⟩
  have hcalls : (p.instrument t).1.calls = told t ⟨[], []⟩ + Stmt.callsOf run.1 :=
    callsOf_insertAfterDirectives ..
  have hsites : ((p.instrument t).2 : Multiset ProbeSite) = run.2.sites := Multiset.coe_reverse ..
  rw [hcalls, hrun, hsites, told]

/-! ### The file that a call names -/

/-- The file that a call of the recording function names, if a text stands for it. -/
def Expr.calledFile? : Expr → Option String
  | .call _ _ _ (_ :: _ :: _ :: _ :: .literal _ (.string file _) :: _) => some file
  | _ => none

/-- The call of a probe names the file of the probe. -/
theorem calledFile?_call (file : String) (s : ProbeSite) : (Probe.call file s).calledFile? = some file :=
  rfl

/-- Traversing leaves the name of the file in a call, and puts none where there was none. -/
theorem keepsCall_calledFile? (t : Tracer) (c : Expr) : KeepsCall t Expr.calledFile? c := by
  cases c with
  | call p l e args =>
    intro s s'
    rcases args with _ | ⟨a, _ | ⟨b, _ | ⟨c, _ | ⟨d, _ | ⟨e, r⟩⟩⟩⟩⟩
    · rfl
    · rfl
    · rfl
    · rfl
    · rfl
    · cases e with
      | literal p v => cases v <;> rfl
      | _ => rfl
  | _ => trivial

/-- The calls in a program with probes name the files that the program's own calls name, and for each site
the file of the probes. -/
theorem Program.calledFiles_instrument (t : Tracer) (p : Program) :
    (p.instrument t).1.calls.map Expr.calledFile? =
      p.calls.map Expr.calledFile? + Multiset.replicate (p.instrument t).2.length (some t.file) := by
  have hsites : (((p.instrument t).2 : Multiset ProbeSite).map (Probe.call t.file)).map Expr.calledFile? =
      Multiset.replicate (p.instrument t).2.length (some t.file) := by
    rw [Multiset.map_map, ← Multiset.coe_card, ← Multiset.map_const']
    exact Multiset.map_congr rfl fun s _ => calledFile?_call t.file s
  rw [p.shows_instrument t fun c _ => keepsCall_calledFile? t c, Multiset.map_add, hsites, add_comm]

end StepTrace.Script
