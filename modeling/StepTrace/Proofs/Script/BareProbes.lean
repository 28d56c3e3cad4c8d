import StepTrace.Proofs.Script.BareNormal
import StepTrace.Proofs.Script.Declared
import StepTrace.Proofs.Script.Traversal
import StepTrace.Script.Traced

/-!
Probes need no parentheses: a program that can be written as it is can be so with its probes in it. Where a
text with probes cannot be read again, something else is to blame: an enumeration becomes a call of a
function without parentheses around it.
-/
namespace StepTrace.Script

open Trace

/-! ### How the text of a part starts and ends -/

namespace Expr

theorem isNullish_instrument (t : Tracer) (e : Expr) (s : Tracing) :
    (result (e.instrument t) s).isNullish = e.isNullish := by
  cases e <;> rfl

theorem isChain_instrument (t : Tracer) (e : Expr) (s : Tracing) :
    (result (e.instrument t) s).isChain = e.isChain := by
  cases e <;> rfl

theorem isNewable_instrument (t : Tracer) (e : Expr) (s : Tracing) :
    (result (e.instrument t) s).isNewable = e.isNewable := by
  cases e with
  | member p l e n => exact isNewable_instrument t e s
  | index p l e k => exact isNewable_instrument t e s
  | tagged p e chunks parts => exact isNewable_instrument t e s
  | _ => rfl

end Expr

mutual

theorem Expr.opening_instrument (t : Tracer) (e : Expr) (s : Tracing) :
    (result (e.instrument t) s).opening = e.opening := by
  cases e with
  | tagged p e chunks parts => exact Expr.opening_instrument t e s
  | update p op isPrefix e =>
    cases isPrefix with
    | true => rfl
    | false => exact Expr.opening_instrument t e s
  | binary p op e r => exact Expr.opening_instrument t e s
  | cond p e a b => exact Expr.opening_instrument t e s
  | member p l e n => exact Expr.opening_instrument t e s
  | index p l e k => exact Expr.opening_instrument t e s
  | call p l e args => exact Expr.opening_instrument t e s
  | ascribed p how e => exact Expr.opening_instrument t e s
  | assign p op q e => exact Pat.opening_instrument t q s
  | sequence p items => exact Expr.openingOf_instruments t items s
  | _ => rfl

theorem Expr.openingOf_instruments (t : Tracer) (es : List Expr) (s : Tracing) :
    Expr.openingOf (result (Expr.instruments t es) s) = Expr.openingOf es := by
  cases es with
  | nil => rfl
  | cons e r => exact Expr.opening_instrument t e s

theorem Pat.opening_instrument (t : Tracer) (q : Pat) (s : Tracing) :
    (result (q.instrument t) s).opening = q.opening := by
  cases q with
  | withDefault p q e => exact Pat.opening_instrument t q s
  | expr e => exact Expr.opening_instrument t e s
  | _ => rfl

end

mutual

theorem Stmt.isOpen_instrument (t : Tracer) (st : Stmt) (s : Tracing) :
    (result (st.instrument t) s).isOpen = st.isOpen := by
  cases st with
  | ifElse p e yes no => exact Stmt.isOpen?_instrument? t no _
  | withObject p e st | labeled p l st | whileLoop p e st | forLoop p h test update st
  | forIn p h e st | forOf p a h e st => exact Stmt.isOpen_instrument t st _
  | _ => rfl

theorem Stmt.isOpen?_instrument? (t : Tracer) (st : Option Stmt) (s : Tracing) :
    Stmt.isOpen? (result (Stmt.instrument? t st) s) = Stmt.isOpen? st := by
  cases st with
  | none => rfl
  | some st => exact Stmt.isOpen_instrument t st s

end

/-! ### What is put in -/

theorem areBare_getters (names : List String) : Property.areBare (names.map Probe.getter) = true := by
  induction names with
  | nil => rfl
  | cons name r ih => exact ih

theorem isBare_call (file : String) (site : ProbeSite) : (Probe.call file site).isBare 1 = true := by
  have hobject : (Property.areBare (site.names.map Probe.getter) && true) = true := by
    rw [areBare_getters, Bool.and_self]
  exact hobject

theorem Stmt.areBare_eq_all (ss : List Stmt) : Stmt.areBare ss = ss.all Stmt.isBare := by
  induction ss with
  | nil => rfl
  | cons s r ih => exact congr(s.isBare && $ih)

theorem Stmt.areBare_append (ss ss' : List Stmt) :
    Stmt.areBare (ss ++ ss') = (Stmt.areBare ss && Stmt.areBare ss') := by
  simp only [Stmt.areBare_eq_all, List.all_append]

theorem areBare_insertAfterDirectives {new ss : List Stmt} (hnew : Stmt.areBare new = true)
    (hss : Stmt.areBare ss = true) : Stmt.areBare (Stmt.insertAfterDirectives new ss) = true := by
  rw [Stmt.areBare_eq_all] at hnew hss ⊢
  exact all_insertAfterDirectives hnew hss

theorem areBare_after (t : Tracer) (st : Stmt) (s : Tracing) :
    Stmt.areBare (result (after t st) s) = true := by
  rw [Stmt.areBare_eq_all, List.all_eq_true]
  intro new hnew
  obtain ⟨site, rfl⟩ := exists_of_mem_after hnew
  exact isBare_call t.file site

namespace Trace

theorem gives_entering (t : Tracer) (p : Place) (names : List String) {body : Trace Block}
    (h : Gives body fun b => b.isBare = true) :
    Gives (entering t p names body) fun b => b.isBare = true := by
  intro s
  have hnew : Stmt.areBare ((result (probe t .entry p names) s).map Probe.stmt).toList = true := by
    rcases result_probe t .entry p names s with hp | ⟨site, hp⟩
    · rw [hp]
      rfl
    · rw [hp]
      exact Bool.and_eq_true_iff.2 ⟨isBare_call t.file site, rfl⟩
  have hbody := h (probe t .entry p names s).2
  simp only [entering, result_bind]
  cases hb : result body (probe t .entry p names s).2 with
  | mk q ss =>
    rw [hb] at hbody
    exact areBare_insertAfterDirectives hnew hbody

/-- After a probe a value is in parentheses, and so it may start with a brace. -/
theorem gives_returning (t : Tracer) (p : Place) (names : List String) {value : Trace Expr}
    {opening : Opening} (hopening : opening ≠ .brace)
    (h : Gives value fun e => e.isBare 1 = true ∧ e.opening = opening) :
    Gives (returning t p names value) fun e => (ArrowBody.expr e).isBare = true := by
  intro s
  obtain ⟨he, heo⟩ := h (probe t .implicitReturn p names s).2
  simp only [returning, result_bind, result_pure]
  rcases result_probe t .implicitReturn p names s with hp | ⟨site, hp⟩
  · rw [hp]
    exact Bool.and_eq_true_iff.2 ⟨decide_eq_true (heo.symm ▸ hopening), he⟩
  · rw [hp]
    have hitems : Expr.areBare 1
        [Probe.call t.file site, result value (probe t .implicitReturn p names s).2] = true := by
      simp only [Expr.areBare, isBare_call, he, Bool.and_self]
    exact hitems

end Trace

/-! ### The parts of a program -/

mutual

theorem Expr.isBare_instrument (t : Tracer) (n : Nat) (e : Expr) (h : e.isBare n = true) :
    Gives (e.instrument t) fun e => e.isBare n = true := by
  cases e with
  | template p chunks parts =>
    exact (Expr.areBare_instruments t 0 parts h).bind fun _ hparts => .pure hparts
  | tagged p tag chunks parts =>
    obtain ⟨htag, hparts⟩ := Bool.and_eq_true_iff.1 h
    obtain ⟨hchain, htag⟩ := Bool.and_eq_true_iff.1 htag
    refine (Expr.isBare_instrument t 18 tag htag).traced.bind fun _ ⟨htag, s, hs⟩ => ?_
    refine (Expr.areBare_instruments t 0 parts hparts).bind fun _ hparts => ?_
    rw [← Expr.isChain_instrument t tag s, hs] at hchain
    exact .pure (Bool.and_eq_true_iff.2 ⟨Bool.and_eq_true_iff.2 ⟨hchain, htag⟩, hparts⟩)
  | array p items => exact (Expr.areBare_instruments t 1 items h).bind fun _ hitems => .pure hitems
  | object p members =>
    exact (Property.areBare_instruments t members h).bind fun _ hmembers => .pure hmembers
  | func name f => exact (Function.isBare_instrument t f h).bind fun _ hf => .pure hf
  | classExpr name c => exact (Class.isBare_instrument t c h).bind fun _ hc => .pure hc
  | arrow p a ps b =>
    obtain ⟨hps, hb⟩ := Bool.and_eq_true_iff.1 h
    obtain ⟨hn, hps⟩ := Bool.and_eq_true_iff.1 hps
    refine Gives.inFunction ((Pat.areBare_instruments t ps hps).bind fun _ hps => ?_)
    refine (ArrowBody.isBare_instrument t b p (Pat.boundNamesOf ps) hb).bind fun _ hb => .pure ?_
    exact Bool.and_eq_true_iff.2 ⟨Bool.and_eq_true_iff.2 ⟨hn, hps⟩, hb⟩
  | unary p op e | await p e =>
    obtain ⟨hn, he⟩ := Bool.and_eq_true_iff.1 h
    refine (Expr.isBare_instrument t 15 e he).bind fun _ he => .pure ?_
    exact Bool.and_eq_true_iff.2 ⟨hn, he⟩
  | update p op pre e =>
    obtain ⟨hn, he⟩ := Bool.and_eq_true_iff.1 h
    refine (Expr.isBare_instrument t 17 e he).bind fun _ he => .pure ?_
    exact Bool.and_eq_true_iff.2 ⟨hn, he⟩
  | binary p op l r =>
    obtain ⟨hl, hr⟩ := Bool.and_eq_true_iff.1 h
    obtain ⟨hn, hl⟩ := Bool.and_eq_true_iff.1 hl
    refine (Expr.isBare_instrument t _ l hl).traced.bind fun _ ⟨hl, s, hs⟩ => ?_
    refine (Expr.isBare_instrument t op.rightLevel r hr).bind fun _ hr => ?_
    rw [← Expr.isNullish_instrument t l s, hs] at hl
    exact .pure (Bool.and_eq_true_iff.2 ⟨Bool.and_eq_true_iff.2 ⟨hn, hl⟩, hr⟩)
  | assign p op q e =>
    obtain ⟨hq, he⟩ := Bool.and_eq_true_iff.1 h
    obtain ⟨hn, hq⟩ := Bool.and_eq_true_iff.1 hq
    refine (Pat.isBare_instrument t q hq).bind fun _ hq => ?_
    refine (Expr.isBare_instrument t 1 e he).bind fun _ he => ?_
    exact .pure (Bool.and_eq_true_iff.2 ⟨Bool.and_eq_true_iff.2 ⟨hn, hq⟩, he⟩)
  | cond p a b c =>
    obtain ⟨hab, hc⟩ := Bool.and_eq_true_iff.1 h
    obtain ⟨ha, hb⟩ := Bool.and_eq_true_iff.1 hab
    obtain ⟨hn, ha⟩ := Bool.and_eq_true_iff.1 ha
    refine (Expr.isBare_instrument t 3 a ha).bind fun _ ha => ?_
    refine (Expr.isBare_instrument t 1 b hb).bind fun _ hb => ?_
    refine (Expr.isBare_instrument t 1 c hc).bind fun _ hc => .pure ?_
    exact Bool.and_eq_true_iff.2
      ⟨Bool.and_eq_true_iff.2 ⟨Bool.and_eq_true_iff.2 ⟨hn, ha⟩, hb⟩, hc⟩
  | member p l e name =>
    obtain ⟨hchain, he⟩ := Bool.and_eq_true_iff.1 h
    refine (Expr.isBare_instrument t 18 e he).traced.bind fun _ ⟨he, s, hs⟩ => ?_
    rw [← Expr.isChain_instrument t e s, hs] at hchain
    exact .pure (Bool.and_eq_true_iff.2 ⟨hchain, he⟩)
  | index p l e k =>
    obtain ⟨he, hk⟩ := Bool.and_eq_true_iff.1 h
    obtain ⟨hchain, he⟩ := Bool.and_eq_true_iff.1 he
    refine (Expr.isBare_instrument t 18 e he).traced.bind fun _ ⟨he, s, hs⟩ => ?_
    refine (Expr.isBare_instrument t 0 k hk).bind fun _ hk => ?_
    rw [← Expr.isChain_instrument t e s, hs] at hchain
    exact .pure (Bool.and_eq_true_iff.2 ⟨Bool.and_eq_true_iff.2 ⟨hchain, he⟩, hk⟩)
  | call p l e args =>
    obtain ⟨he, hargs⟩ := Bool.and_eq_true_iff.1 h
    obtain ⟨hchain, he⟩ := Bool.and_eq_true_iff.1 he
    refine (Expr.isBare_instrument t 18 e he).traced.bind fun _ ⟨he, s, hs⟩ => ?_
    refine (Expr.areBare_instruments t 1 args hargs).bind fun _ hargs => ?_
    rw [← Expr.isChain_instrument t e s, hs] at hchain
    exact .pure (Bool.and_eq_true_iff.2 ⟨Bool.and_eq_true_iff.2 ⟨hchain, he⟩, hargs⟩)
  | construct p e hasArgs args =>
    obtain ⟨he, hargs⟩ := Bool.and_eq_true_iff.1 h
    obtain ⟨hnew, he⟩ := Bool.and_eq_true_iff.1 he
    obtain ⟨hn, hnew⟩ := Bool.and_eq_true_iff.1 hnew
    refine (Expr.isBare_instrument t _ e he).traced.bind fun _ ⟨he, s, hs⟩ => ?_
    refine (Expr.areBare_instruments t 1 args hargs).bind fun _ hargs => .pure ?_
    rw [← Expr.isNewable_instrument t e s, hs] at hnew
    exact Bool.and_eq_true_iff.2
      ⟨Bool.and_eq_true_iff.2 ⟨Bool.and_eq_true_iff.2 ⟨hn, hnew⟩, he⟩, hargs⟩
  | sequence p items =>
    obtain ⟨hn, hitems⟩ := Bool.and_eq_true_iff.1 h
    refine (Expr.areBare_instruments t 1 items hitems).bind fun _ hitems => .pure ?_
    exact Bool.and_eq_true_iff.2 ⟨hn, hitems⟩
  | paren p e => exact (Expr.isBare_instrument t 0 e h).bind fun _ he => .pure he
  | «yield» p d e =>
    obtain ⟨hn, he⟩ := Bool.and_eq_true_iff.1 h
    refine (Expr.isBare?_instrument? t 1 e he).bind fun _ he => .pure ?_
    exact Bool.and_eq_true_iff.2 ⟨hn, he⟩
  | spread p e =>
    obtain ⟨hn, he⟩ := Bool.and_eq_true_iff.1 h
    refine (Expr.isBare_instrument t 1 e he).bind fun _ he => .pure ?_
    exact Bool.and_eq_true_iff.2 ⟨hn, he⟩
  | element p name c as_ cs =>
    obtain ⟨has, hcs⟩ := Bool.and_eq_true_iff.1 h
    refine (JsxPart.areBare_instruments t as_ has).bind fun _ has => ?_
    refine (JsxPart.areBare_instruments t cs hcs).bind fun _ hcs => ?_
    exact .pure (Bool.and_eq_true_iff.2 ⟨has, hcs⟩)
  | ascribed => cases h
  | this | superRef | importRef | ident | literal | metaProperty | elision => exact .pure h

theorem Expr.areBare_instruments (t : Tracer) (n : Nat) (es : List Expr) (h : Expr.areBare n es = true) :
    Gives (Expr.instruments t es) fun es => Expr.areBare n es = true := by
  cases es with
  | nil => exact .pure rfl
  | cons e r =>
    obtain ⟨he, hr⟩ := Bool.and_eq_true_iff.1 h
    refine (Expr.isBare_instrument t n e he).bind fun _ he => ?_
    refine (Expr.areBare_instruments t n r hr).bind fun _ hr => ?_
    exact .pure (Bool.and_eq_true_iff.2 ⟨he, hr⟩)

theorem Expr.isBare?_instrument? (t : Tracer) (n : Nat) (e : Option Expr)
    (h : Expr.isBare? n e = true) :
    Gives (Expr.instrument? t e) fun e => Expr.isBare? n e = true := by
  cases e with
  | none => exact .pure rfl
  | some e => exact (Expr.isBare_instrument t n e h).bind fun _ he => .pure he

theorem JsxPart.isBare_instrument (t : Tracer) (p : JsxPart) (h : p.isBare = true) :
    Gives (p.instrument t) fun p => p.isBare = true := by
  match p with
  | .attribute name none | .text v => exact .pure rfl
  | .attribute name (some v) => exact (JsxPart.isBare_instrument t v h).bind fun _ hv => .pure hv
  | .spread e => exact (Expr.isBare_instrument t 1 e h).bind fun _ he => .pure he
  | .container e => exact (Expr.isBare?_instrument? t 0 e h).bind fun _ he => .pure he
  | .child e => exact (Expr.isBare_instrument t 18 e h).bind fun _ he => .pure he

theorem JsxPart.areBare_instruments (t : Tracer) (ps : List JsxPart) (h : JsxPart.areBare ps = true) :
    Gives (JsxPart.instruments t ps) fun ps => JsxPart.areBare ps = true := by
  cases ps with
  | nil => exact .pure rfl
  | cons p r =>
    obtain ⟨hp, hr⟩ := Bool.and_eq_true_iff.1 h
    refine (JsxPart.isBare_instrument t p hp).bind fun _ hp => ?_
    refine (JsxPart.areBare_instruments t r hr).bind fun _ hr => ?_
    exact .pure (Bool.and_eq_true_iff.2 ⟨hp, hr⟩)

theorem Property.isBare_instrument (t : Tracer) (p : Property) (h : p.isBare = true) :
    Gives (p.instrument t) fun p => p.isBare = true := by
  cases p with
  | shorthand name e => exact (Expr.isBare?_instrument? t 1 e h).bind fun _ he => .pure he
  | keyValue k e =>
    obtain ⟨hk, he⟩ := Bool.and_eq_true_iff.1 h
    refine (Key.isBare_instrument t k hk).bind fun _ hk => ?_
    refine (Expr.isBare_instrument t 1 e he).bind fun _ he => ?_
    exact .pure (Bool.and_eq_true_iff.2 ⟨hk, he⟩)
  | method k f =>
    obtain ⟨hk, hf⟩ := Bool.and_eq_true_iff.1 h
    refine (Key.isBare_instrument t k hk).bind fun _ hk => ?_
    refine (Function.isBare_instrument t f hf).bind fun _ hf => ?_
    exact .pure (Bool.and_eq_true_iff.2 ⟨hk, hf⟩)
  | getter p k b =>
    obtain ⟨hk, hb⟩ := Bool.and_eq_true_iff.1 h
    refine Gives.inFunction ((Key.isBare_instrument t k hk).bind fun _ hk => ?_)
    refine (Block.isBare_instrument t b hb).bind fun _ hb => ?_
    exact .pure (Bool.and_eq_true_iff.2 ⟨hk, hb⟩)
  | setter p k q b =>
    obtain ⟨hkq, hb⟩ := Bool.and_eq_true_iff.1 h
    obtain ⟨hk, hq⟩ := Bool.and_eq_true_iff.1 hkq
    refine Gives.inFunction ((Key.isBare_instrument t k hk).bind fun _ hk => ?_)
    refine (Pat.isBare_instrument t q hq).bind fun _ hq => ?_
    refine (Block.isBare_instrument t b hb).bind fun _ hb => ?_
    exact .pure (Bool.and_eq_true_iff.2 ⟨Bool.and_eq_true_iff.2 ⟨hk, hq⟩, hb⟩)
  | spread p e => exact (Expr.isBare_instrument t 1 e h).bind fun _ he => .pure he

theorem Property.areBare_instruments (t : Tracer) (ps : List Property)
    (h : Property.areBare ps = true) :
    Gives (Property.instruments t ps) fun ps => Property.areBare ps = true := by
  cases ps with
  | nil => exact .pure rfl
  | cons p r =>
    obtain ⟨hp, hr⟩ := Bool.and_eq_true_iff.1 h
    refine (Property.isBare_instrument t p hp).bind fun _ hp => ?_
    refine (Property.areBare_instruments t r hr).bind fun _ hr => ?_
    exact .pure (Bool.and_eq_true_iff.2 ⟨hp, hr⟩)

theorem Key.isBare_instrument (t : Tracer) (k : Key) (h : k.isBare = true) :
    Gives (k.instrument t) fun k => k.isBare = true := by
  cases k with
  | computed p e => exact (Expr.isBare_instrument t 1 e h).bind fun _ he => .pure he
  | name | literal => exact .pure rfl

theorem Pat.isBare_instrument (t : Tracer) (q : Pat) (h : q.isBare = true) :
    Gives (q.instrument t) fun q => q.isBare = true := by
  cases q with
  | ident | elision => exact .pure rfl
  | array p items => exact (Pat.areBare_instruments t items h).bind fun _ hitems => .pure hitems
  | object p members =>
    exact (PatProperty.areBare_instruments t members h).bind fun _ hmembers => .pure hmembers
  | rest p q => exact (Pat.isBare_instrument t q h).bind fun _ hq => .pure hq
  | withDefault p q e =>
    obtain ⟨hq, he⟩ := Bool.and_eq_true_iff.1 h
    refine (Pat.isBare_instrument t q hq).bind fun _ hq => ?_
    refine (Expr.isBare_instrument t 1 e he).bind fun _ he => ?_
    exact .pure (Bool.and_eq_true_iff.2 ⟨hq, he⟩)
  | expr e => exact (Expr.isBare_instrument t 17 e h).bind fun _ he => .pure he

theorem Pat.areBare_instruments (t : Tracer) (qs : List Pat) (h : Pat.areBare qs = true) :
    Gives (Pat.instruments t qs) fun qs => Pat.areBare qs = true := by
  cases qs with
  | nil => exact .pure rfl
  | cons q r =>
    obtain ⟨hq, hr⟩ := Bool.and_eq_true_iff.1 h
    refine (Pat.isBare_instrument t q hq).bind fun _ hq => ?_
    refine (Pat.areBare_instruments t r hr).bind fun _ hr => ?_
    exact .pure (Bool.and_eq_true_iff.2 ⟨hq, hr⟩)

theorem Pat.isBare?_instrument? (t : Tracer) (q : Option Pat) (h : Pat.isBare? q = true) :
    Gives (Pat.instrument? t q) fun q => Pat.isBare? q = true := by
  cases q with
  | none => exact .pure rfl
  | some q => exact (Pat.isBare_instrument t q h).bind fun _ hq => .pure hq

theorem PatProperty.isBare_instrument (t : Tracer) (p : PatProperty) (h : p.isBare = true) :
    Gives (p.instrument t) fun p => p.isBare = true := by
  cases p with
  | keyValue k q =>
    obtain ⟨hk, hq⟩ := Bool.and_eq_true_iff.1 h
    refine (Key.isBare_instrument t k hk).bind fun _ hk => ?_
    refine (Pat.isBare_instrument t q hq).bind fun _ hq => ?_
    exact .pure (Bool.and_eq_true_iff.2 ⟨hk, hq⟩)
  | shorthand p name e => exact (Expr.isBare?_instrument? t 1 e h).bind fun _ he => .pure he
  | rest p q => exact (Pat.isBare_instrument t q h).bind fun _ hq => .pure hq

theorem PatProperty.areBare_instruments (t : Tracer) (ps : List PatProperty)
    (h : PatProperty.areBare ps = true) :
    Gives (PatProperty.instruments t ps) fun ps => PatProperty.areBare ps = true := by
  cases ps with
  | nil => exact .pure rfl
  | cons p r =>
    obtain ⟨hp, hr⟩ := Bool.and_eq_true_iff.1 h
    refine (PatProperty.isBare_instrument t p hp).bind fun _ hp => ?_
    refine (PatProperty.areBare_instruments t r hr).bind fun _ hr => ?_
    exact .pure (Bool.and_eq_true_iff.2 ⟨hp, hr⟩)

theorem Function.isBare_instrument (t : Tracer) (f : Function) (h : f.isBare = true) :
    Gives (f.instrument t) fun f => f.isBare = true := by
  cases f with
  | mk p a g ds ps b =>
    obtain ⟨hdps, hb⟩ := Bool.and_eq_true_iff.1 h
    obtain ⟨hds, hps⟩ := Bool.and_eq_true_iff.1 hdps
    refine Gives.inFunction ((Expr.areBare_instruments t 17 ds hds).bind fun _ hds => ?_)
    refine (Param.areBare_instruments t ps hps).bind fun _ hps => ?_
    refine (Block.isBare?_instrumentBody? t p (Param.boundNamesOf ps) b hb).bind fun _ hb => .pure ?_
    exact Bool.and_eq_true_iff.2 ⟨Bool.and_eq_true_iff.2 ⟨hds, hps⟩, hb⟩

theorem Block.isBare?_instrumentBody? (t : Tracer) (p : Place) (names : List String)
    (b : Option Block) (h : Block.isBare? b = true) :
    Gives (Block.instrumentBody? t p names b) fun b => Block.isBare? b = true := by
  cases b with
  | none => exact .pure rfl
  | some b =>
    exact (gives_entering t p names (Block.isBare_instrument t b h)).bind fun _ hb => .pure hb

theorem Param.isBare_instrument (t : Tracer) (p : Param) (h : p.isBare = true) :
    Gives (p.instrument t) fun p => p.isBare = true := by
  cases p with
  | mk p ds i q =>
    obtain ⟨hds, hq⟩ := Bool.and_eq_true_iff.1 h
    refine (Expr.areBare_instruments t 17 ds hds).bind fun _ hds => ?_
    refine (Pat.isBare_instrument t q hq).bind fun _ hq => ?_
    exact .pure (Bool.and_eq_true_iff.2 ⟨hds, hq⟩)

theorem Param.areBare_instruments (t : Tracer) (ps : List Param) (h : Param.areBare ps = true) :
    Gives (Param.instruments t ps) fun ps => Param.areBare ps = true := by
  cases ps with
  | nil => exact .pure rfl
  | cons p r =>
    obtain ⟨hp, hr⟩ := Bool.and_eq_true_iff.1 h
    refine (Param.isBare_instrument t p hp).bind fun _ hp => ?_
    refine (Param.areBare_instruments t r hr).bind fun _ hr => ?_
    exact .pure (Bool.and_eq_true_iff.2 ⟨hp, hr⟩)

theorem ArrowBody.isBare_instrument (t : Tracer) (b : ArrowBody) (p : Place) (names : List String)
    (h : b.isBare = true) : Gives (b.instrument t p names) fun b => b.isBare = true := by
  cases b with
  | block b =>
    exact (gives_entering t p names (Block.isBare_instrument t b h)).bind fun _ hb => .pure hb
  | expr e =>
    obtain ⟨hopening, he⟩ := Bool.and_eq_true_iff.1 h
    have hvalue : Gives (e.instrument t) fun e' => e'.isBare 1 = true ∧ e'.opening = e.opening :=
      fun s => ⟨Expr.isBare_instrument t 1 e he s, Expr.opening_instrument t e s⟩
    exact (gives_returning t p names (of_decide_eq_true hopening) hvalue).bind fun _ he => .pure he

theorem Block.isBare_instrument (t : Tracer) (b : Block) (h : b.isBare = true) :
    Gives (b.instrument t) fun b => b.isBare = true := by
  cases b with
  | mk p ss => exact Gives.inBlock ((Stmt.areBare_instruments t ss h).bind fun _ hss => .pure hss)

theorem Block.isBare?_instrument? (t : Tracer) (b : Option Block) (h : Block.isBare? b = true) :
    Gives (Block.instrument? t b) fun b => Block.isBare? b = true := by
  cases b with
  | none => exact .pure rfl
  | some b => exact (Block.isBare_instrument t b h).bind fun _ hb => .pure hb

theorem Class.isBare_instrument (t : Tracer) (c : Class) (h : c.isBare = true) :
    Gives (c.instrument t) fun c => c.isBare = true := by
  cases c with
  | mk p ds members parent =>
    obtain ⟨hdm, hparent⟩ := Bool.and_eq_true_iff.1 h
    obtain ⟨hds, hmembers⟩ := Bool.and_eq_true_iff.1 hdm
    refine (Expr.areBare_instruments t 17 ds hds).bind fun _ hds => ?_
    refine (ClassMember.areBare_instruments t members hmembers).bind fun _ hmembers => ?_
    refine (Expr.isBare?_instrument? t 17 parent hparent).bind fun _ hparent => ?_
    exact .pure (Bool.and_eq_true_iff.2 ⟨Bool.and_eq_true_iff.2 ⟨hds, hmembers⟩, hparent⟩)

theorem ClassMember.isBare_instrument (t : Tracer) (m : ClassMember) (h : m.isBare = true) :
    Gives (m.instrument t) fun m => m.isBare = true := by
  cases m with
  | ctor p k ps b =>
    obtain ⟨hkps, hb⟩ := Bool.and_eq_true_iff.1 h
    obtain ⟨hk, hps⟩ := Bool.and_eq_true_iff.1 hkps
    refine Gives.inFunction ((Param.areBare_instruments t ps hps).bind fun _ hps => ?_)
    refine (Block.isBare?_instrumentBody? t p (Param.boundNamesOf ps) b hb).bind fun _ hb => .pure ?_
    exact Bool.and_eq_true_iff.2 ⟨Bool.and_eq_true_iff.2 ⟨hk, hps⟩, hb⟩
  | method p k kind st e f =>
    obtain ⟨hk, hf⟩ := Bool.and_eq_true_iff.1 h
    refine (Key.isBare_instrument t k hk).bind fun _ hk => ?_
    refine (Function.isBare_instrument t f hf).bind fun _ hf => ?_
    exact .pure (Bool.and_eq_true_iff.2 ⟨hk, hf⟩)
  | property p k st e a v ds =>
    obtain ⟨hkv, hds⟩ := Bool.and_eq_true_iff.1 h
    obtain ⟨hk, hv⟩ := Bool.and_eq_true_iff.1 hkv
    refine (Key.isBare_instrument t k hk).bind fun _ hk => ?_
    refine (Expr.isBare?_instrument? t 1 v hv).bind fun _ hv => ?_
    refine (Expr.areBare_instruments t 17 ds hds).bind fun _ hds => ?_
    exact .pure (Bool.and_eq_true_iff.2 ⟨Bool.and_eq_true_iff.2 ⟨hk, hv⟩, hds⟩)
  | staticBlock p b => exact (Block.isBare_instrument t b h).bind fun _ hb => .pure hb
  | empty p => exact .pure rfl

theorem ClassMember.areBare_instruments (t : Tracer) (ms : List ClassMember)
    (h : ClassMember.areBare ms = true) :
    Gives (ClassMember.instruments t ms) fun ms => ClassMember.areBare ms = true := by
  cases ms with
  | nil => exact .pure rfl
  | cons m r =>
    obtain ⟨hm, hr⟩ := Bool.and_eq_true_iff.1 h
    refine (ClassMember.isBare_instrument t m hm).bind fun _ hm => ?_
    refine (ClassMember.areBare_instruments t r hr).bind fun _ hr => ?_
    exact .pure (Bool.and_eq_true_iff.2 ⟨hm, hr⟩)

theorem Stmt.isBare_instrument (t : Tracer) (st : Stmt) (h : st.isBare = true) :
    Gives (st.instrument t) fun st => st.isBare = true := by
  cases st with
  | block b => exact (Block.isBare_instrument t b h).bind fun _ hb => .pure hb
  | withObject p e st | whileLoop p e st | doWhileLoop p e st =>
    obtain ⟨he, hst⟩ := Bool.and_eq_true_iff.1 h
    refine (Expr.isBare_instrument t 0 e he).bind fun _ he => ?_
    refine (Stmt.isBare_instrument t st hst).bind fun _ hst => ?_
    exact .pure (Bool.and_eq_true_iff.2 ⟨he, hst⟩)
  | returnStmt p e => exact (Expr.isBare?_instrument? t 0 e h).bind fun _ he => .pure he
  | labeled p l st | exportDecl p st =>
    exact (Stmt.isBare_instrument t st h).bind fun _ hst => .pure hst
  | ifElse p e yes no =>
    obtain ⟨hey, hno⟩ := Bool.and_eq_true_iff.1 h
    obtain ⟨he, hyes⟩ := Bool.and_eq_true_iff.1 hey
    obtain ⟨hclosed, he⟩ := Bool.and_eq_true_iff.1 he
    refine (Expr.isBare_instrument t 0 e he).bind fun _ he => ?_
    refine (Stmt.isBare_instrument t yes hyes).traced.bind fun _ ⟨hyes, s, hs⟩ => ?_
    refine (Stmt.isBare?_instrument? t no hno).traced.bind fun _ ⟨hno, s', hs'⟩ => .pure ?_
    have hnone : (result (Stmt.instrument? t no) s').isNone = no.isNone := by
      cases no <;> rfl
    rw [← Stmt.isOpen_instrument t yes s, hs, ← hnone, hs'] at hclosed
    exact Bool.and_eq_true_iff.2
      ⟨Bool.and_eq_true_iff.2 ⟨Bool.and_eq_true_iff.2 ⟨hclosed, he⟩, hyes⟩, hno⟩
  | switchOn p e cases =>
    obtain ⟨he, hcases⟩ := Bool.and_eq_true_iff.1 h
    refine (Expr.isBare_instrument t 0 e he).bind fun _ he => ?_
    refine (Gives.inBlock (SwitchCase.areBare_instruments t cases hcases)).bind fun _ hcases => ?_
    exact .pure (Bool.and_eq_true_iff.2 ⟨he, hcases⟩)
  | throwStmt p e => exact (Expr.isBare_instrument t 0 e h).bind fun _ he => .pure he
  | tryStmt p b c f =>
    obtain ⟨hbc, hf⟩ := Bool.and_eq_true_iff.1 h
    obtain ⟨hb, hc⟩ := Bool.and_eq_true_iff.1 hbc
    refine (Block.isBare_instrument t b hb).bind fun _ hb => ?_
    refine (Catch.isBare?_instrument? t c hc).bind fun _ hc => ?_
    refine (Block.isBare?_instrument? t f hf).bind fun _ hf => ?_
    exact .pure (Bool.and_eq_true_iff.2 ⟨Bool.and_eq_true_iff.2 ⟨hb, hc⟩, hf⟩)
  | forLoop p head test update st =>
    obtain ⟨hhtu, hst⟩ := Bool.and_eq_true_iff.1 h
    obtain ⟨hht, hupdate⟩ := Bool.and_eq_true_iff.1 hhtu
    obtain ⟨hhead, htest⟩ := Bool.and_eq_true_iff.1 hht
    have hdeclare : Gives (declareHead head) fun _ => True := fun _ => trivial
    refine Gives.inBlock (hdeclare.bind fun _ _ => ?_)
    refine (LoopHead.isBare_instrument t head hhead).bind fun _ hhead => ?_
    refine (Expr.isBare?_instrument? t 0 test htest).bind fun _ htest => ?_
    refine (Expr.isBare?_instrument? t 0 update hupdate).bind fun _ hupdate => ?_
    refine (Stmt.isBare_instrument t st hst).bind fun _ hst => .pure ?_
    exact Bool.and_eq_true_iff.2
      ⟨Bool.and_eq_true_iff.2 ⟨Bool.and_eq_true_iff.2 ⟨hhead, htest⟩, hupdate⟩, hst⟩
  | forIn p head e st =>
    obtain ⟨hhe, hst⟩ := Bool.and_eq_true_iff.1 h
    obtain ⟨hhead, he⟩ := Bool.and_eq_true_iff.1 hhe
    have hdeclare : Gives (declareHead head) fun _ => True := fun _ => trivial
    refine Gives.inBlock (hdeclare.bind fun _ _ => ?_)
    refine (LoopHead.isBare_instrument t head hhead).bind fun _ hhead => ?_
    refine (Expr.isBare_instrument t 0 e he).bind fun _ he => ?_
    refine (Stmt.isBare_instrument t st hst).bind fun _ hst => .pure ?_
    exact Bool.and_eq_true_iff.2 ⟨Bool.and_eq_true_iff.2 ⟨hhead, he⟩, hst⟩
  | forOf p a head e st =>
    obtain ⟨hhe, hst⟩ := Bool.and_eq_true_iff.1 h
    obtain ⟨hhead, he⟩ := Bool.and_eq_true_iff.1 hhe
    have hdeclare : Gives (declareHead head) fun _ => True := fun _ => trivial
    refine Gives.inBlock (hdeclare.bind fun _ _ => ?_)
    refine (LoopHead.isBare_instrument t head hhead).bind fun _ hhead => ?_
    refine (Expr.isBare_instrument t 1 e he).bind fun _ he => ?_
    refine (Stmt.isBare_instrument t st hst).bind fun _ hst => .pure ?_
    exact Bool.and_eq_true_iff.2 ⟨Bool.and_eq_true_iff.2 ⟨hhead, he⟩, hst⟩
  | varDecl d => exact (VarDecl.isBare_instrument t d h).bind fun _ hd => .pure hd
  | func n f | exportDefaultFunc p n f =>
    exact (Function.isBare_instrument t f h).bind fun _ hf => .pure hf
  | classDecl n c | exportDefaultClass p n c =>
    exact (Class.isBare_instrument t c h).bind fun _ hc => .pure hc
  | expr p e =>
    obtain ⟨hopening, he⟩ := Bool.and_eq_true_iff.1 h
    refine (Expr.isBare_instrument t 0 e he).traced.bind fun _ ⟨he, s, hs⟩ => .pure ?_
    rw [← Expr.opening_instrument t e s, hs] at hopening
    exact Bool.and_eq_true_iff.2 ⟨hopening, he⟩
  | exportDefault p e =>
    obtain ⟨hopening, he⟩ := Bool.and_eq_true_iff.1 h
    refine (Expr.isBare_instrument t 1 e he).traced.bind fun _ ⟨he, s, hs⟩ => .pure ?_
    rw [← Expr.opening_instrument t e s, hs] at hopening
    exact Bool.and_eq_true_iff.2 ⟨hopening, he⟩
  | typed => cases h
  | empty | debugger | breakTo | continueTo | importNames | exportNames | exportAll => exact .pure rfl

theorem Stmt.isBare?_instrument? (t : Tracer) (st : Option Stmt) (h : Stmt.isBare? st = true) :
    Gives (Stmt.instrument? t st) fun st => Stmt.isBare? st = true := by
  cases st with
  | none => exact .pure rfl
  | some st => exact (Stmt.isBare_instrument t st h).bind fun _ hst => .pure hst

theorem Stmt.areBare_instruments (t : Tracer) (ss : List Stmt) (h : Stmt.areBare ss = true) :
    Gives (Stmt.instruments t ss) fun ss => Stmt.areBare ss = true := by
  cases ss with
  | nil => exact .pure rfl
  | cons st r =>
    obtain ⟨hst, hr⟩ := Bool.and_eq_true_iff.1 h
    refine (Stmt.isBare_instrument t st hst).bind fun st' hst => ?_
    have hnew : Gives (after t st') fun new => Stmt.areBare new = true := areBare_after t st'
    refine hnew.bind fun _ hnew => ?_
    refine (Stmt.areBare_instruments t r hr).bind fun _ hr => .pure ?_
    rw [List.cons_append, Stmt.areBare, Stmt.areBare_append, hst, hnew, hr]
    rfl

theorem VarDecl.isBare_instrument (t : Tracer) (d : VarDecl) (h : d.isBare = true) :
    Gives (d.instrument t) fun d => d.isBare = true := by
  cases d with
  | mk p k d items => exact (Declarator.areBare_instruments t items h).bind fun _ hitems => .pure hitems

theorem Declarator.isBare_instrument (t : Tracer) (d : Declarator) (h : d.isBare = true) :
    Gives (d.instrument t) fun d => d.isBare = true := by
  cases d with
  | mk p q e =>
    obtain ⟨hq, he⟩ := Bool.and_eq_true_iff.1 h
    refine (Pat.isBare_instrument t q hq).bind fun _ hq => ?_
    refine (Expr.isBare?_instrument? t 1 e he).bind fun _ he => ?_
    exact .pure (Bool.and_eq_true_iff.2 ⟨hq, he⟩)

theorem Declarator.areBare_instruments (t : Tracer) (ds : List Declarator)
    (h : Declarator.areBare ds = true) :
    Gives (Declarator.instruments t ds) fun ds => Declarator.areBare ds = true := by
  cases ds with
  | nil => exact .pure rfl
  | cons d r =>
    obtain ⟨hd, hr⟩ := Bool.and_eq_true_iff.1 h
    refine (Declarator.isBare_instrument t d hd).bind fun _ hd => ?_
    refine (Declarator.areBare_instruments t r hr).bind fun _ hr => ?_
    exact .pure (Bool.and_eq_true_iff.2 ⟨hd, hr⟩)

theorem SwitchCase.isBare_instrument (t : Tracer) (c : SwitchCase) (h : c.isBare = true) :
    Gives (c.instrument t) fun c => c.isBare = true := by
  cases c with
  | mk p e ss =>
    obtain ⟨he, hss⟩ := Bool.and_eq_true_iff.1 h
    refine (Expr.isBare?_instrument? t 0 e he).bind fun _ he => ?_
    refine (Stmt.areBare_instruments t ss hss).bind fun _ hss => ?_
    exact .pure (Bool.and_eq_true_iff.2 ⟨he, hss⟩)

theorem SwitchCase.areBare_instruments (t : Tracer) (cs : List SwitchCase)
    (h : SwitchCase.areBare cs = true) :
    Gives (SwitchCase.instruments t cs) fun cs => SwitchCase.areBare cs = true := by
  cases cs with
  | nil => exact .pure rfl
  | cons c r =>
    obtain ⟨hc, hr⟩ := Bool.and_eq_true_iff.1 h
    refine (SwitchCase.isBare_instrument t c hc).bind fun _ hc => ?_
    refine (SwitchCase.areBare_instruments t r hr).bind fun _ hr => ?_
    exact .pure (Bool.and_eq_true_iff.2 ⟨hc, hr⟩)

theorem Catch.isBare_instrument (t : Tracer) (c : Catch) (h : c.isBare = true) :
    Gives (c.instrument t) fun c => c.isBare = true := by
  cases c with
  | mk p q b =>
    obtain ⟨hq, hb⟩ := Bool.and_eq_true_iff.1 h
    refine Gives.inScope (fun s => (s.push .block).declareAll (q.elim [] Pat.boundNames)) ?_
    refine (Pat.isBare?_instrument? t q hq).bind fun _ hq => ?_
    refine (Block.isBare_instrument t b hb).bind fun _ hb => ?_
    exact .pure (Bool.and_eq_true_iff.2 ⟨hq, hb⟩)

theorem Catch.isBare?_instrument? (t : Tracer) (c : Option Catch) (h : Catch.isBare? c = true) :
    Gives (Catch.instrument? t c) fun c => Catch.isBare? c = true := by
  cases c with
  | none => exact .pure rfl
  | some c => exact (Catch.isBare_instrument t c h).bind fun _ hc => .pure hc

theorem LoopHead.isBare_instrument (t : Tracer) (head : LoopHead) (h : head.isBare = true) :
    Gives (head.instrument t) fun head => head.isBare = true := by
  cases head with
  | none => exact .pure rfl
  | varDecl d => exact (VarDecl.isBare_instrument t d h).bind fun _ hd => .pure hd
  | pat q => exact (Pat.isBare_instrument t q h).bind fun _ hq => .pure hq
  | expr e => exact (Expr.isBare_instrument t 0 e h).bind fun _ he => .pure he

end

/-! ### Whole programs and texts -/

theorem Program.isBare_instrument (t : Tracer) {p : Program} (h : p.isBare = true) :
    (p.instrument t).1.isBare = true := by
  obtain ⟨s, -, hs⟩ := exists_instrument_eq t p
  rw [hs]
  exact areBare_insertAfterDirectives rfl (Stmt.areBare_instruments t p.body h s)

end StepTrace.Script
