import Mathlib.Data.List.TakeWhile
import Mathlib.Tactic.TermCongr
import StepTrace.Script.Instrument

/-!
Taking the probes out of a program: calls of the recording function that are statements, calls that stand
before a value between parentheses that nobody wrote, and the declaration of the function. What is left
of a program with probes is the program itself, so probes are all that was added and nothing was moved.
-/
namespace StepTrace.Script

namespace Expr

/-- A call of the recording function. -/
def isRecordCall : Expr → Bool
  | call _ _ f _ => f.isIdentOf recordName
  | _ => false

/-- An expression between parentheses; of a call before a value, between parentheses that nobody wrote,
the value is left. -/
def enclosed (p : Place) : Expr → Expr
  | sequence none [c, e] => if p = none ∧ c.isRecordCall then e else .paren p (.sequence none [c, e])
  | e => .paren p e

end Expr

namespace Stmt

/-- A call of the recording function as a statement. -/
def isProbe : Stmt → Bool
  | expr _ e => e.isRecordCall
  | _ => false

/-- A declaration of the recording function and nothing else. -/
def declaresRecord : Stmt → Bool
  | varDecl (.mk _ _ _ [.mk _ (.ident n) _]) => n.text == recordName
  | _ => false

end Stmt

/-! ### The parts of a program without their probes

Declarations of TypeScript stay as they are: no probe is ever put into one. -/

mutual

def Expr.unprobe : Expr → Expr
  | .template p chunks parts => .template p chunks (Expr.unprobes parts)
  | .tagged p tag chunks parts => .tagged p tag.unprobe chunks (Expr.unprobes parts)
  | .array p items => .array p (Expr.unprobes items)
  | .object p members => .object p (Property.unprobes members)
  | .func n f => .func n f.unprobe
  | .classExpr n c => .classExpr n c.unprobe
  | .arrow p a ps b => .arrow p a (Pat.unprobes ps) b.unprobe
  | .unary p op e => .unary p op e.unprobe
  | .update p op pre e => .update p op pre e.unprobe
  | .binary p op l r => .binary p op l.unprobe r.unprobe
  | .assign p op q e => .assign p op q.unprobe e.unprobe
  | .cond p a b c => .cond p a.unprobe b.unprobe c.unprobe
  | .member p l e n => .member p l e.unprobe n
  | .index p l e k => .index p l e.unprobe k.unprobe
  | .call p l e args => .call p l e.unprobe (Expr.unprobes args)
  | .construct p e h args => .construct p e.unprobe h (Expr.unprobes args)
  | .sequence p items => .sequence p (Expr.unprobes items)
  | .paren p e => .enclosed p e.unprobe
  | .await p e => .await p e.unprobe
  | .yield p d e => .yield p d (Expr.unprobe? e)
  | .spread p e => .spread p e.unprobe
  | .element p n c as_ cs => .element p n c (JsxPart.unprobes as_) (JsxPart.unprobes cs)
  | .ascribed p h e => .ascribed p h e.unprobe
  | e => e

def Expr.unprobes : List Expr → List Expr
  | [] => []
  | e :: r => e.unprobe :: Expr.unprobes r

def Expr.unprobe? : Option Expr → Option Expr
  | none => none
  | some e => some e.unprobe

def JsxPart.unprobe : JsxPart → JsxPart
  | .attribute n none => .attribute n none
  | .attribute n (some v) => .attribute n (some v.unprobe)
  | .spread e => .spread e.unprobe
  | .text s => .text s
  | .container e => .container (Expr.unprobe? e)
  | .child e => .child e.unprobe

def JsxPart.unprobes : List JsxPart → List JsxPart
  | [] => []
  | p :: r => p.unprobe :: JsxPart.unprobes r

def Property.unprobe : Property → Property
  | .shorthand n e => .shorthand n (Expr.unprobe? e)
  | .keyValue k e => .keyValue k.unprobe e.unprobe
  | .method k f => .method k.unprobe f.unprobe
  | .getter p k b => .getter p k.unprobe b.unprobe
  | .setter p k q b => .setter p k.unprobe q.unprobe b.unprobe
  | .spread p e => .spread p e.unprobe

def Property.unprobes : List Property → List Property
  | [] => []
  | p :: r => p.unprobe :: Property.unprobes r

def Key.unprobe : Key → Key
  | .computed p e => .computed p e.unprobe
  | k => k

def Pat.unprobe : Pat → Pat
  | .ident n => .ident n
  | .elision => .elision
  | .array p items => .array p (Pat.unprobes items)
  | .object p members => .object p (PatProperty.unprobes members)
  | .rest p q => .rest p q.unprobe
  | .withDefault p q e => .withDefault p q.unprobe e.unprobe
  | .expr e => .expr e.unprobe

def Pat.unprobes : List Pat → List Pat
  | [] => []
  | q :: r => q.unprobe :: Pat.unprobes r

def Pat.unprobe? : Option Pat → Option Pat
  | none => none
  | some q => some q.unprobe

def PatProperty.unprobe : PatProperty → PatProperty
  | .keyValue k q => .keyValue k.unprobe q.unprobe
  | .shorthand p n e => .shorthand p n (Expr.unprobe? e)
  | .rest p q => .rest p q.unprobe

def PatProperty.unprobes : List PatProperty → List PatProperty
  | [] => []
  | p :: r => p.unprobe :: PatProperty.unprobes r

def Function.unprobe : Function → Function
  | .mk p a g ds ps b => .mk p a g (Expr.unprobes ds) (Param.unprobes ps) (Block.unprobe? b)

def Param.unprobe : Param → Param
  | .mk p ds i q => .mk p (Expr.unprobes ds) i q.unprobe

def Param.unprobes : List Param → List Param
  | [] => []
  | p :: r => p.unprobe :: Param.unprobes r

def ArrowBody.unprobe : ArrowBody → ArrowBody
  | .block b => .block b.unprobe
  | .expr e => .expr e.unprobe

def Block.unprobe : Block → Block
  | .mk p stmts => .mk p (Stmt.unprobes stmts)

def Block.unprobe? : Option Block → Option Block
  | none => none
  | some b => some b.unprobe

def Class.unprobe : Class → Class
  | .mk p ds members parent =>
    .mk p (Expr.unprobes ds) (ClassMember.unprobes members) (Expr.unprobe? parent)

def ClassMember.unprobe : ClassMember → ClassMember
  | .ctor p k ps b => .ctor p k (Param.unprobes ps) (Block.unprobe? b)
  | .method p k kind s e f => .method p k.unprobe kind s e f.unprobe
  | .property p k s e a v ds => .property p k.unprobe s e a (Expr.unprobe? v) (Expr.unprobes ds)
  | .staticBlock p b => .staticBlock p b.unprobe
  | .empty p => .empty p

def ClassMember.unprobes : List ClassMember → List ClassMember
  | [] => []
  | m :: r => m.unprobe :: ClassMember.unprobes r

def Stmt.unprobe : Stmt → Stmt
  | .block b => .block b.unprobe
  | .withObject p e s => .withObject p e.unprobe s.unprobe
  | .returnStmt p e => .returnStmt p (Expr.unprobe? e)
  | .labeled p l s => .labeled p l s.unprobe
  | .ifElse p e yes no => .ifElse p e.unprobe yes.unprobe (Stmt.unprobe? no)
  | .switchOn p e cases => .switchOn p e.unprobe (SwitchCase.unprobes cases)
  | .throwStmt p e => .throwStmt p e.unprobe
  | .tryStmt p b c f => .tryStmt p b.unprobe (Catch.unprobe? c) (Block.unprobe? f)
  | .whileLoop p e s => .whileLoop p e.unprobe s.unprobe
  | .doWhileLoop p e s => .doWhileLoop p e.unprobe s.unprobe
  | .forLoop p h test update s =>
    .forLoop p h.unprobe (Expr.unprobe? test) (Expr.unprobe? update) s.unprobe
  | .forIn p h e s => .forIn p h.unprobe e.unprobe s.unprobe
  | .forOf p a h e s => .forOf p a h.unprobe e.unprobe s.unprobe
  | .varDecl d => .varDecl d.unprobe
  | .func n f => .func n f.unprobe
  | .classDecl n c => .classDecl n c.unprobe
  | .expr p e => .expr p e.unprobe
  | .exportDecl p d => .exportDecl p d.unprobe
  | .exportDefault p e => .exportDefault p e.unprobe
  | .exportDefaultFunc p n f => .exportDefaultFunc p n f.unprobe
  | .exportDefaultClass p n c => .exportDefaultClass p n c.unprobe
  | s => s

def Stmt.unprobe? : Option Stmt → Option Stmt
  | none => none
  | some s => some s.unprobe

/-- Statements without the calls among them. -/
def Stmt.unprobes : List Stmt → List Stmt
  | [] => []
  | s :: r => if s.unprobe.isProbe then Stmt.unprobes r else s.unprobe :: Stmt.unprobes r

def VarDecl.unprobe : VarDecl → VarDecl
  | .mk p k d items => .mk p k d (Declarator.unprobes items)

def Declarator.unprobe : Declarator → Declarator
  | .mk p q e => .mk p q.unprobe (Expr.unprobe? e)

def Declarator.unprobes : List Declarator → List Declarator
  | [] => []
  | d :: r => d.unprobe :: Declarator.unprobes r

def SwitchCase.unprobe : SwitchCase → SwitchCase
  | .mk p e stmts => .mk p (Expr.unprobe? e) (Stmt.unprobes stmts)

def SwitchCase.unprobes : List SwitchCase → List SwitchCase
  | [] => []
  | c :: r => c.unprobe :: SwitchCase.unprobes r

def Catch.unprobe : Catch → Catch
  | .mk p q b => .mk p (Pat.unprobe? q) b.unprobe

def Catch.unprobe? : Option Catch → Option Catch
  | none => none
  | some c => some c.unprobe

def LoopHead.unprobe : LoopHead → LoopHead
  | .none => .none
  | .varDecl d => .varDecl d.unprobe
  | .pat q => .pat q.unprobe
  | .expr e => .expr e.unprobe

end

/-- A program without its probes, and without the first declaration of the recording function. -/
def Program.unprobe (p : Program) : Program :=
  { p with body := (Stmt.unprobes p.body).eraseP Stmt.declaresRecord }

/-! ### What a traversal gives

A traversal reads and changes scopes; what it makes of a part differs between scopes in the probes
only. -/

namespace Trace

/-- What a traversal gives from a state. -/
def result {α : Type} (m : Trace α) (s : Tracing) : α := (m s).1

@[simp] theorem result_pure {α : Type} (a : α) (s : Tracing) : result (pure a) s = a := rfl

@[simp] theorem result_bind {α β : Type} (m : Trace α) (k : α → Trace β) (s : Tracing) :
    result (m >>= k) s = result (k (result m s)) (m s).2 := rfl

end Trace

open Trace

/-! ### Probes are taken out -/

namespace Stmt

theorem unprobes_cons (s : Stmt) (r : List Stmt) :
    unprobes (s :: r) = if s.unprobe.isProbe then unprobes r else s.unprobe :: unprobes r := rfl

theorem unprobes_append (a b : List Stmt) : unprobes (a ++ b) = unprobes a ++ unprobes b := by
  induction a with
  | nil => rfl
  | cons s a ih => by_cases hs : s.unprobe.isProbe <;> simp [unprobes_cons, hs, ih]

theorem exists_of_mem_unprobes {s : Stmt} {stmts : List Stmt} (h : s ∈ unprobes stmts) :
    ∃ d ∈ stmts, d.unprobe = s := by
  induction stmts with
  | nil => cases h
  | cons d r ih =>
    rw [unprobes_cons] at h
    split at h
    · obtain ⟨e, he, hes⟩ := ih h
      exact ⟨e, List.mem_cons_of_mem _ he, hes⟩
    · rcases List.mem_cons.1 h with rfl | h
      · exact ⟨d, List.mem_cons_self, rfl⟩
      · obtain ⟨e, he, hes⟩ := ih h
        exact ⟨e, List.mem_cons_of_mem _ he, hes⟩

end Stmt

theorem unprobes_probe (file : String) (site : ProbeSite) :
    Stmt.unprobes [Probe.stmt (Probe.call file site)] = [] := rfl

theorem unprobe_before (file : String) (site : ProbeSite) (e : Expr) :
    (Probe.before (Probe.call file site) e).unprobe = e.unprobe := rfl

/-- A probe is a call of the recording function, or none at all. -/
theorem result_probe (t : Tracer) (kind : ProbeKind) (p : Place) (names : List String) (s : Tracing) :
    result (probe t kind p names) s = none ∨
      ∃ site, result (probe t kind p names) s = some (Probe.call t.file site) := by
  cases p with
  | none => exact Or.inl rfl
  | some span => exact Or.inr ⟨_, rfl⟩

theorem unprobes_probe_toList (t : Tracer) (kind : ProbeKind) (p : Place) (names : List String)
    (s : Tracing) :
    Stmt.unprobes ((result (probe t kind p names) s).map Probe.stmt).toList = [] := by
  rcases result_probe t kind p names s with h | ⟨site, h⟩
  · rw [h]
    rfl
  · rw [h]
    exact unprobes_probe t.file site

theorem unprobes_stmtProbe (t : Tracer) (p : Place) (s : Tracing) :
    Stmt.unprobes (result (stmtProbe t p) s) = [] :=
  unprobes_probe_toList ..

/-- What follows a statement is a probe, or nothing. -/
theorem unprobes_after (t : Tracer) (st : Stmt) (s : Tracing) :
    Stmt.unprobes (result (after t st) s) = [] := by
  unfold after
  split
  · next d =>
    rw [result_bind]
    split
    · rfl
    · exact unprobes_stmtProbe ..
  · exact unprobes_stmtProbe ..
  · split
    · rfl
    · exact unprobes_stmtProbe ..
  · rfl

theorem unprobes_insertAfterDirectives (new stmts : List Stmt) :
    Stmt.unprobes (Stmt.insertAfterDirectives new stmts) =
      Stmt.unprobes (stmts.takeWhile Stmt.isDirective) ++ Stmt.unprobes new ++
        Stmt.unprobes (stmts.dropWhile Stmt.isDirective) := by
  rw [Stmt.insertAfterDirectives, Stmt.unprobes_append, Stmt.unprobes_append]

theorem unprobes_directives_append (stmts : List Stmt) :
    Stmt.unprobes (stmts.takeWhile Stmt.isDirective) ++
      Stmt.unprobes (stmts.dropWhile Stmt.isDirective) = Stmt.unprobes stmts := by
  rw [← Stmt.unprobes_append, List.takeWhile_append_dropWhile]

/-- The probe at the start of a body is taken out, wherever its directives end. -/
theorem unprobe_entering (t : Tracer) (p : Place) (params : List String) (body : Trace Block)
    (s : Tracing) {b : Block} (h : ∀ s, (result body s).unprobe = b.unprobe) :
    (result (entering t p params body) s).unprobe = b.unprobe := by
  have hb := h (probe t .entry p params s).2
  have hnew := unprobes_probe_toList t .entry p params s
  simp only [entering, result_bind]
  rw [← hb]
  cases result body (probe t .entry p params s).2 with
  | mk q stmts =>
    refine congr(Block.mk q $(?_))
    rw [unprobes_insertAfterDirectives, hnew, List.append_nil, unprobes_directives_append]

/-- The probe before the value of an arrow function is taken out. -/
theorem unprobe_returning (t : Tracer) (p : Place) (params : List String) (value : Trace Expr)
    (s : Tracing) {e : Expr} (h : ∀ s, (result value s).unprobe = e.unprobe) :
    (result (returning t p params value) s).unprobe = e.unprobe := by
  have he := h (probe t .implicitReturn p params s).2
  simp only [returning, result_bind, result_pure]
  rw [← he]
  rcases result_probe t .implicitReturn p params s with hp | ⟨site, hp⟩
  · rw [hp]
  · rw [hp]
    exact unprobe_before t.file site _

/-- A statement is followed by its probe, and that by the other statements. -/
theorem result_instruments_cons (t : Tracer) (st : Stmt) (r : List Stmt) (s : Tracing) :
    ∃ s₁ s₂, result (Stmt.instruments t (st :: r)) s =
      result (st.instrument t) s :: result (after t (result (st.instrument t) s)) s₁ ++
        result (Stmt.instruments t r) s₂ :=
  ⟨_, _, rfl⟩

/-! ### Taking out what was put in

A part is traversed after others, so the state in which it is traversed is arbitrary. -/

mutual

theorem Expr.unprobe_instrument (t : Tracer) (e : Expr) (s : Tracing) :
    (result (e.instrument t) s).unprobe = e.unprobe := by
  cases e with
  | template p chunks parts =>
    exact congr(Expr.template p chunks $(Expr.unprobes_instruments t parts _))
  | tagged p tag chunks parts =>
    have htag := Expr.unprobe_instrument t tag
    exact congr(Expr.tagged p $(htag _) chunks $(Expr.unprobes_instruments t parts _))
  | array p items => exact congr(Expr.array p $(Expr.unprobes_instruments t items _))
  | object p members => exact congr(Expr.object p $(Property.unprobes_instruments t members _))
  | func n f => exact congr(Expr.func n $(Function.unprobe_instrument t f _))
  | classExpr n c => exact congr(Expr.classExpr n $(Class.unprobe_instrument t c _))
  | arrow p a ps b =>
    have hps := Pat.unprobes_instruments t ps
    have hb := ArrowBody.unprobe_instrument t b p (Pat.boundNamesOf ps)
    exact congr(Expr.arrow p a $(hps _) $(hb _))
  | unary p op e => exact congr(Expr.unary p op $(Expr.unprobe_instrument t e _))
  | update p op pre e => exact congr(Expr.update p op pre $(Expr.unprobe_instrument t e _))
  | binary p op l r =>
    have hl := Expr.unprobe_instrument t l
    have hr := Expr.unprobe_instrument t r
    exact congr(Expr.binary p op $(hl _) $(hr _))
  | assign p op q e =>
    have hq := Pat.unprobe_instrument t q
    have he := Expr.unprobe_instrument t e
    exact congr(Expr.assign p op $(hq _) $(he _))
  | cond p a b c =>
    have ha := Expr.unprobe_instrument t a
    have hb := Expr.unprobe_instrument t b
    have hc := Expr.unprobe_instrument t c
    exact congr(Expr.cond p $(ha _) $(hb _) $(hc _))
  | member p l e n => exact congr(Expr.member p l $(Expr.unprobe_instrument t e _) n)
  | index p l e k =>
    have he := Expr.unprobe_instrument t e
    have hk := Expr.unprobe_instrument t k
    exact congr(Expr.index p l $(he _) $(hk _))
  | call p l e args =>
    have he := Expr.unprobe_instrument t e
    have hargs := Expr.unprobes_instruments t args
    exact congr(Expr.call p l $(he _) $(hargs _))
  | construct p e h args =>
    have he := Expr.unprobe_instrument t e
    have hargs := Expr.unprobes_instruments t args
    exact congr(Expr.construct p $(he _) h $(hargs _))
  | sequence p items => exact congr(Expr.sequence p $(Expr.unprobes_instruments t items _))
  | paren p e => exact congr(Expr.enclosed p $(Expr.unprobe_instrument t e _))
  | await p e => exact congr(Expr.await p $(Expr.unprobe_instrument t e _))
  | yield p d e => exact congr(Expr.yield p d $(Expr.unprobe?_instrument? t e _))
  | spread p e => exact congr(Expr.spread p $(Expr.unprobe_instrument t e _))
  | element p n c as_ cs =>
    have has := JsxPart.unprobes_instruments t as_
    have hcs := JsxPart.unprobes_instruments t cs
    exact congr(Expr.element p n c $(has _) $(hcs _))
  | ascribed p h e => exact congr(Expr.ascribed p h $(Expr.unprobe_instrument t e _))
  | this | superRef | importRef | ident | literal | metaProperty | elision => rfl

theorem Expr.unprobes_instruments (t : Tracer) (es : List Expr) (s : Tracing) :
    Expr.unprobes (result (Expr.instruments t es) s) = Expr.unprobes es := by
  cases es with
  | nil => rfl
  | cons e r =>
    have he := Expr.unprobe_instrument t e
    exact congr($(he _) :: $(Expr.unprobes_instruments t r _))

theorem Expr.unprobe?_instrument? (t : Tracer) (e : Option Expr) (s : Tracing) :
    Expr.unprobe? (result (Expr.instrument? t e) s) = Expr.unprobe? e := by
  cases e with
  | none => rfl
  | some e => exact congr(some $(Expr.unprobe_instrument t e _))

theorem JsxPart.unprobe_instrument (t : Tracer) (p : JsxPart) (s : Tracing) :
    (result (p.instrument t) s).unprobe = p.unprobe := by
  match p with
  | .attribute n none | .text v => rfl
  | .attribute n (some v) => exact congr(JsxPart.attribute n (some $(JsxPart.unprobe_instrument t v _)))
  | .spread e => exact congr(JsxPart.spread $(Expr.unprobe_instrument t e _))
  | .container e => exact congr(JsxPart.container $(Expr.unprobe?_instrument? t e _))
  | .child e => exact congr(JsxPart.child $(Expr.unprobe_instrument t e _))

theorem JsxPart.unprobes_instruments (t : Tracer) (ps : List JsxPart) (s : Tracing) :
    JsxPart.unprobes (result (JsxPart.instruments t ps) s) = JsxPart.unprobes ps := by
  cases ps with
  | nil => rfl
  | cons p r =>
    have hp := JsxPart.unprobe_instrument t p
    exact congr($(hp _) :: $(JsxPart.unprobes_instruments t r _))

theorem Property.unprobe_instrument (t : Tracer) (p : Property) (s : Tracing) :
    (result (p.instrument t) s).unprobe = p.unprobe := by
  cases p with
  | shorthand n e => exact congr(Property.shorthand n $(Expr.unprobe?_instrument? t e _))
  | keyValue k e =>
    have hk := Key.unprobe_instrument t k
    exact congr(Property.keyValue $(hk _) $(Expr.unprobe_instrument t e _))
  | method k f =>
    have hk := Key.unprobe_instrument t k
    exact congr(Property.method $(hk _) $(Function.unprobe_instrument t f _))
  | getter p k b =>
    have hk := Key.unprobe_instrument t k
    exact congr(Property.getter p $(hk _) $(Block.unprobe_instrument t b _))
  | setter p k q b =>
    have hk := Key.unprobe_instrument t k
    have hq := Pat.unprobe_instrument t q
    exact congr(Property.setter p $(hk _) $(hq _) $(Block.unprobe_instrument t b _))
  | spread p e => exact congr(Property.spread p $(Expr.unprobe_instrument t e _))

theorem Property.unprobes_instruments (t : Tracer) (ps : List Property) (s : Tracing) :
    Property.unprobes (result (Property.instruments t ps) s) = Property.unprobes ps := by
  cases ps with
  | nil => rfl
  | cons p r =>
    have hp := Property.unprobe_instrument t p
    exact congr($(hp _) :: $(Property.unprobes_instruments t r _))

theorem Key.unprobe_instrument (t : Tracer) (k : Key) (s : Tracing) :
    (result (k.instrument t) s).unprobe = k.unprobe := by
  cases k with
  | computed p e => exact congr(Key.computed p $(Expr.unprobe_instrument t e _))
  | name | literal => rfl

theorem Pat.unprobe_instrument (t : Tracer) (q : Pat) (s : Tracing) :
    (result (q.instrument t) s).unprobe = q.unprobe := by
  cases q with
  | ident | elision => rfl
  | array p items => exact congr(Pat.array p $(Pat.unprobes_instruments t items _))
  | object p members => exact congr(Pat.object p $(PatProperty.unprobes_instruments t members _))
  | rest p q => exact congr(Pat.rest p $(Pat.unprobe_instrument t q _))
  | withDefault p q e =>
    have hq := Pat.unprobe_instrument t q
    exact congr(Pat.withDefault p $(hq _) $(Expr.unprobe_instrument t e _))
  | expr e => exact congr(Pat.expr $(Expr.unprobe_instrument t e _))

theorem Pat.unprobes_instruments (t : Tracer) (qs : List Pat) (s : Tracing) :
    Pat.unprobes (result (Pat.instruments t qs) s) = Pat.unprobes qs := by
  cases qs with
  | nil => rfl
  | cons q r =>
    have hq := Pat.unprobe_instrument t q
    exact congr($(hq _) :: $(Pat.unprobes_instruments t r _))

theorem Pat.unprobe?_instrument? (t : Tracer) (q : Option Pat) (s : Tracing) :
    Pat.unprobe? (result (Pat.instrument? t q) s) = Pat.unprobe? q := by
  cases q with
  | none => rfl
  | some q => exact congr(some $(Pat.unprobe_instrument t q _))

theorem PatProperty.unprobe_instrument (t : Tracer) (p : PatProperty) (s : Tracing) :
    (result (p.instrument t) s).unprobe = p.unprobe := by
  cases p with
  | keyValue k q =>
    have hk := Key.unprobe_instrument t k
    exact congr(PatProperty.keyValue $(hk _) $(Pat.unprobe_instrument t q _))
  | shorthand p n e => exact congr(PatProperty.shorthand p n $(Expr.unprobe?_instrument? t e _))
  | rest p q => exact congr(PatProperty.rest p $(Pat.unprobe_instrument t q _))

theorem PatProperty.unprobes_instruments (t : Tracer) (ps : List PatProperty) (s : Tracing) :
    PatProperty.unprobes (result (PatProperty.instruments t ps) s) = PatProperty.unprobes ps := by
  cases ps with
  | nil => rfl
  | cons p r =>
    have hp := PatProperty.unprobe_instrument t p
    exact congr($(hp _) :: $(PatProperty.unprobes_instruments t r _))

theorem Function.unprobe_instrument (t : Tracer) (f : Function) (s : Tracing) :
    (result (f.instrument t) s).unprobe = f.unprobe := by
  cases f with
  | mk p a g ds ps b =>
    have hds := Expr.unprobes_instruments t ds
    have hps := Param.unprobes_instruments t ps
    have hb := Block.unprobe?_instrumentBody? t p (Param.boundNamesOf ps) b
    exact congr(Function.mk p a g $(hds _) $(hps _) $(hb _))

/-- The probe at the start of a function is taken out with those in its body. -/
theorem Block.unprobe?_instrumentBody? (t : Tracer) (p : Place) (params : List String)
    (b : Option Block) (s : Tracing) :
    Block.unprobe? (result (Block.instrumentBody? t p params b) s) = Block.unprobe? b := by
  cases b with
  | none => rfl
  | some b =>
    have hb := Block.unprobe_instrument t b
    exact congr(some $(unprobe_entering t p params _ _ hb))

theorem Param.unprobe_instrument (t : Tracer) (p : Param) (s : Tracing) :
    (result (p.instrument t) s).unprobe = p.unprobe := by
  cases p with
  | mk p ds i q =>
    have hds := Expr.unprobes_instruments t ds
    exact congr(Param.mk p $(hds _) i $(Pat.unprobe_instrument t q _))

theorem Param.unprobes_instruments (t : Tracer) (ps : List Param) (s : Tracing) :
    Param.unprobes (result (Param.instruments t ps) s) = Param.unprobes ps := by
  cases ps with
  | nil => rfl
  | cons p r =>
    have hp := Param.unprobe_instrument t p
    exact congr($(hp _) :: $(Param.unprobes_instruments t r _))

theorem ArrowBody.unprobe_instrument (t : Tracer) (b : ArrowBody) (p : Place) (params : List String)
    (s : Tracing) : (result (b.instrument t p params) s).unprobe = b.unprobe := by
  cases b with
  | block b =>
    have hb := Block.unprobe_instrument t b
    exact congr(ArrowBody.block $(unprobe_entering t p params _ _ hb))
  | expr e =>
    have he := Expr.unprobe_instrument t e
    exact congr(ArrowBody.expr $(unprobe_returning t p params _ _ he))

theorem Block.unprobe_instrument (t : Tracer) (b : Block) (s : Tracing) :
    (result (b.instrument t) s).unprobe = b.unprobe := by
  cases b with
  | mk p stmts => exact congr(Block.mk p $(Stmt.unprobes_instruments t stmts _))

theorem Block.unprobe?_instrument? (t : Tracer) (b : Option Block) (s : Tracing) :
    Block.unprobe? (result (Block.instrument? t b) s) = Block.unprobe? b := by
  cases b with
  | none => rfl
  | some b => exact congr(some $(Block.unprobe_instrument t b _))

theorem Class.unprobe_instrument (t : Tracer) (c : Class) (s : Tracing) :
    (result (c.instrument t) s).unprobe = c.unprobe := by
  cases c with
  | mk p ds members parent =>
    have hds := Expr.unprobes_instruments t ds
    have hmembers := ClassMember.unprobes_instruments t members
    exact congr(Class.mk p $(hds _) $(hmembers _) $(Expr.unprobe?_instrument? t parent _))

theorem ClassMember.unprobe_instrument (t : Tracer) (m : ClassMember) (s : Tracing) :
    (result (m.instrument t) s).unprobe = m.unprobe := by
  cases m with
  | ctor p k ps b =>
    have hps := Param.unprobes_instruments t ps
    have hb := Block.unprobe?_instrumentBody? t p (Param.boundNamesOf ps) b
    exact congr(ClassMember.ctor p k $(hps _) $(hb _))
  | method p k kind st e f =>
    have hk := Key.unprobe_instrument t k
    exact congr(ClassMember.method p $(hk _) kind st e $(Function.unprobe_instrument t f _))
  | property p k st e a v ds =>
    have hk := Key.unprobe_instrument t k
    have hv := Expr.unprobe?_instrument? t v
    exact congr(ClassMember.property p $(hk _) st e a $(hv _) $(Expr.unprobes_instruments t ds _))
  | staticBlock p b => exact congr(ClassMember.staticBlock p $(Block.unprobe_instrument t b _))
  | empty p => rfl

theorem ClassMember.unprobes_instruments (t : Tracer) (ms : List ClassMember) (s : Tracing) :
    ClassMember.unprobes (result (ClassMember.instruments t ms) s) = ClassMember.unprobes ms := by
  cases ms with
  | nil => rfl
  | cons m r =>
    have hm := ClassMember.unprobe_instrument t m
    exact congr($(hm _) :: $(ClassMember.unprobes_instruments t r _))

theorem Stmt.unprobe_instrument (t : Tracer) (st : Stmt) (s : Tracing) :
    (result (st.instrument t) s).unprobe = st.unprobe := by
  cases st with
  | block b => exact congr(Stmt.block $(Block.unprobe_instrument t b _))
  | withObject p e st =>
    have he := Expr.unprobe_instrument t e
    exact congr(Stmt.withObject p $(he _) $(Stmt.unprobe_instrument t st _))
  | returnStmt p e => exact congr(Stmt.returnStmt p $(Expr.unprobe?_instrument? t e _))
  | labeled p l st => exact congr(Stmt.labeled p l $(Stmt.unprobe_instrument t st _))
  | ifElse p e yes no =>
    have he := Expr.unprobe_instrument t e
    have hyes := Stmt.unprobe_instrument t yes
    exact congr(Stmt.ifElse p $(he _) $(hyes _) $(Stmt.unprobe?_instrument? t no _))
  | switchOn p e cases =>
    have he := Expr.unprobe_instrument t e
    exact congr(Stmt.switchOn p $(he _) $(SwitchCase.unprobes_instruments t cases _))
  | throwStmt p e => exact congr(Stmt.throwStmt p $(Expr.unprobe_instrument t e _))
  | tryStmt p b c f =>
    have hb := Block.unprobe_instrument t b
    have hc := Catch.unprobe?_instrument? t c
    exact congr(Stmt.tryStmt p $(hb _) $(hc _) $(Block.unprobe?_instrument? t f _))
  | whileLoop p e st =>
    have he := Expr.unprobe_instrument t e
    exact congr(Stmt.whileLoop p $(he _) $(Stmt.unprobe_instrument t st _))
  | doWhileLoop p e st =>
    have he := Expr.unprobe_instrument t e
    exact congr(Stmt.doWhileLoop p $(he _) $(Stmt.unprobe_instrument t st _))
  | forLoop p h test update st =>
    have hh := LoopHead.unprobe_instrument t h
    have htest := Expr.unprobe?_instrument? t test
    have hupdate := Expr.unprobe?_instrument? t update
    have hst := Stmt.unprobe_instrument t st
    exact congr(Stmt.forLoop p $(hh _) $(htest _) $(hupdate _) $(hst _))
  | forIn p h e st =>
    have hh := LoopHead.unprobe_instrument t h
    have he := Expr.unprobe_instrument t e
    exact congr(Stmt.forIn p $(hh _) $(he _) $(Stmt.unprobe_instrument t st _))
  | forOf p a h e st =>
    have hh := LoopHead.unprobe_instrument t h
    have he := Expr.unprobe_instrument t e
    exact congr(Stmt.forOf p a $(hh _) $(he _) $(Stmt.unprobe_instrument t st _))
  | varDecl d => exact congr(Stmt.varDecl $(VarDecl.unprobe_instrument t d _))
  | func n f => exact congr(Stmt.func n $(Function.unprobe_instrument t f _))
  | classDecl n c => exact congr(Stmt.classDecl n $(Class.unprobe_instrument t c _))
  | expr p e => exact congr(Stmt.expr p $(Expr.unprobe_instrument t e _))
  | exportDecl p d => exact congr(Stmt.exportDecl p $(Stmt.unprobe_instrument t d _))
  | exportDefault p e => exact congr(Stmt.exportDefault p $(Expr.unprobe_instrument t e _))
  | exportDefaultFunc p n f =>
    exact congr(Stmt.exportDefaultFunc p n $(Function.unprobe_instrument t f _))
  | exportDefaultClass p n c =>
    exact congr(Stmt.exportDefaultClass p n $(Class.unprobe_instrument t c _))
  | empty | debugger | breakTo | continueTo | importNames | exportNames | exportAll | typed => rfl

theorem Stmt.unprobe?_instrument? (t : Tracer) (st : Option Stmt) (s : Tracing) :
    Stmt.unprobe? (result (Stmt.instrument? t st) s) = Stmt.unprobe? st := by
  cases st with
  | none => rfl
  | some st => exact congr(some $(Stmt.unprobe_instrument t st _))

/-- The probes between statements are taken out, and the statements stay in order. -/
theorem Stmt.unprobes_instruments (t : Tracer) (sts : List Stmt) (s : Tracing) :
    Stmt.unprobes (result (Stmt.instruments t sts) s) = Stmt.unprobes sts := by
  cases sts with
  | nil => rfl
  | cons st r =>
    have hst := Stmt.unprobe_instrument t st s
    have hr := Stmt.unprobes_instruments t r
    obtain ⟨s₁, s₂, h⟩ := result_instruments_cons t st r s
    rw [h, List.cons_append, Stmt.unprobes_cons, Stmt.unprobes_append, Stmt.unprobes_cons, hst,
      unprobes_after, hr, List.nil_append]

theorem VarDecl.unprobe_instrument (t : Tracer) (d : VarDecl) (s : Tracing) :
    (result (d.instrument t) s).unprobe = d.unprobe := by
  cases d with
  | mk p k d items => exact congr(VarDecl.mk p k d $(Declarator.unprobes_instruments t items _))

theorem Declarator.unprobe_instrument (t : Tracer) (d : Declarator) (s : Tracing) :
    (result (d.instrument t) s).unprobe = d.unprobe := by
  cases d with
  | mk p q e =>
    have hq := Pat.unprobe_instrument t q
    exact congr(Declarator.mk p $(hq _) $(Expr.unprobe?_instrument? t e _))

theorem Declarator.unprobes_instruments (t : Tracer) (ds : List Declarator) (s : Tracing) :
    Declarator.unprobes (result (Declarator.instruments t ds) s) = Declarator.unprobes ds := by
  cases ds with
  | nil => rfl
  | cons d r =>
    have hd := Declarator.unprobe_instrument t d
    exact congr($(hd _) :: $(Declarator.unprobes_instruments t r _))

theorem SwitchCase.unprobe_instrument (t : Tracer) (c : SwitchCase) (s : Tracing) :
    (result (c.instrument t) s).unprobe = c.unprobe := by
  cases c with
  | mk p e stmts =>
    have he := Expr.unprobe?_instrument? t e
    exact congr(SwitchCase.mk p $(he _) $(Stmt.unprobes_instruments t stmts _))

theorem SwitchCase.unprobes_instruments (t : Tracer) (cs : List SwitchCase) (s : Tracing) :
    SwitchCase.unprobes (result (SwitchCase.instruments t cs) s) = SwitchCase.unprobes cs := by
  cases cs with
  | nil => rfl
  | cons c r =>
    have hc := SwitchCase.unprobe_instrument t c
    exact congr($(hc _) :: $(SwitchCase.unprobes_instruments t r _))

theorem Catch.unprobe_instrument (t : Tracer) (c : Catch) (s : Tracing) :
    (result (c.instrument t) s).unprobe = c.unprobe := by
  cases c with
  | mk p q b =>
    have hq := Pat.unprobe?_instrument? t q
    exact congr(Catch.mk p $(hq _) $(Block.unprobe_instrument t b _))

theorem Catch.unprobe?_instrument? (t : Tracer) (c : Option Catch) (s : Tracing) :
    Catch.unprobe? (result (Catch.instrument? t c) s) = Catch.unprobe? c := by
  cases c with
  | none => rfl
  | some c => exact congr(some $(Catch.unprobe_instrument t c _))

theorem LoopHead.unprobe_instrument (t : Tracer) (h : LoopHead) (s : Tracing) :
    (result (h.instrument t) s).unprobe = h.unprobe := by
  cases h with
  | none => rfl
  | varDecl d => exact congr(LoopHead.varDecl $(VarDecl.unprobe_instrument t d _))
  | pat q => exact congr(LoopHead.pat $(Pat.unprobe_instrument t q _))
  | expr e => exact congr(LoopHead.expr $(Expr.unprobe_instrument t e _))

end

/-! ### Whole programs -/

/-- The header stands where the directives end, so it is the first declaration of its kind. -/
theorem eraseP_header (stmts : List Stmt) :
    (Stmt.unprobes (Stmt.insertAfterDirectives [Probe.fallback] stmts)).eraseP Stmt.declaresRecord =
      Stmt.unprobes stmts := by
  have hheader : Stmt.unprobes [Probe.fallback] = [Probe.fallback] := rfl
  have hdirectives : ∀ s ∈ Stmt.unprobes (stmts.takeWhile Stmt.isDirective),
      ¬s.declaresRecord = true := by
    intro s hs
    obtain ⟨d, hd, rfl⟩ := Stmt.exists_of_mem_unprobes hs
    have hdir := List.mem_takeWhile_imp hd
    cases d with
    | expr p e => exact Bool.false_ne_true
    | _ => cases hdir
  rw [unprobes_insertAfterDirectives, hheader, List.append_assoc, List.eraseP_append_right _ hdirectives,
    ← unprobes_directives_append stmts]
  rfl

/-- A program is traversed in a scope of its own, and gets its header last. -/
theorem exists_instrument_eq (t : Tracer) (p : Program) :
    ∃ s : Tracing, s.scopes = [⟨.function, []⟩] ∧ (p.instrument t).1 =
      { p with body := Stmt.insertAfterDirectives [Probe.fallback]
                  (result (Stmt.instruments t p.body) s) } :=
  ⟨_, rfl, rfl⟩

/-- What is left of a program with probes is what is left of the program. -/
theorem unprobe_instrument_program (t : Tracer) (p : Program) :
    (p.instrument t).1.unprobe = { p with body := Stmt.unprobes p.body } := by
  obtain ⟨s, -, hs⟩ := exists_instrument_eq t p
  rw [hs, Program.unprobe, eraseP_header, Stmt.unprobes_instruments]

end StepTrace.Script
