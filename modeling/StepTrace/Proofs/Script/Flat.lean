import StepTrace.Proofs.Script.Declared
import StepTrace.Proofs.Script.Plain
import StepTrace.Proofs.Script.Traversal

/-!
Expressions without statements. All that is put into one are probes before the values of arrow functions,
and these read parameters only. So it does not matter which scopes such an expression is traversed in.
-/
namespace StepTrace.Script

open Trace ScopeStack

/-! ### What is put in -/

theorem binds_of_subset {env names : List String} (h : names ⊆ env) : binds env names = true :=
  List.all_eq_true.2 fun _ hx => decide_eq_true (h hx)

theorem getterNames_probe (names : List String) :
    Expr.getterNames (.object none (names.map Probe.getter)) = names := by
  simp only [Expr.getterNames, List.filterMap_map]
  exact List.filterMap_some

theorem areScoped_getters (env names : List String) :
    Property.areScoped env (names.map Probe.getter) = true := by
  induction names with
  | nil => rfl
  | cons name r ih => exact ih

/-- The call of a probe captures the names of its site. -/
theorem captures_call (site : ProbeSite) (rest : List Expr) (hrest : rest.flatMap Expr.getterNames = []) :
    (Probe.ident recordName).captures none
        (Probe.number site.position.line :: Probe.number site.position.column ::
          .object none (site.names.map Probe.getter) :: rest) = site.names := by
  have hobject := getterNames_probe site.names
  exact (congr($hobject ++ $hrest)).trans (List.append_nil _)

/-- The call of a probe is scoped where the names it reads are bound. -/
theorem isScoped_call {file : String} {site : ProbeSite} {env : List String}
    (h : site.names ⊆ env) : (Probe.call file site).isScoped env = true := by
  have hbinds := binds_of_subset h
  rw [← captures_call site [.literal none (.boolean (site.kind = .implicitReturn)),
    .literal none (.string file "")] rfl] at hbinds
  have hargs : (Property.areScoped env (site.names.map Probe.getter) && true) = true := by
    rw [areScoped_getters, Bool.and_self]
  exact Bool.and_eq_true_iff.2 ⟨Bool.and_eq_true_iff.2 ⟨hbinds, rfl⟩, hargs⟩

theorem binds_captures {p : Place} {callee : Expr} (h : (!callee.isProbeCall p) = true)
    (env : List String) (args : List Expr) : binds env (callee.captures p args) = true := by
  unfold Expr.captures
  rw [if_neg (by simpa using h)]
  rfl

/-- Traversing makes no call look like a probe. -/
theorem isProbeCall_instrument (t : Tracer) (p : Place) (e : Expr) (s : Tracing) :
    (result (e.instrument t) s).isProbeCall p = e.isProbeCall p := by
  cases e <;> rfl

namespace Trace

variable {full : ScopeStack} {env names : List String}

theorem keeps_probe (t : Tracer) (kind : ProbeKind) (p : Place) (names : List String)
    (full : ScopeStack) :
    Keeps full (probe t kind p names) fun c =>
      ∀ e ∈ c, ∀ env, names ⊆ env → e.isScoped env = true := by
  intro s hs
  cases p with
  | none => exact ⟨hs, fun _ he => by cases he⟩
  | some span =>
    refine ⟨hs, fun e he env hnames => ?_⟩
    cases he
    exact isScoped_call hnames

/-- The value of an arrow function, after a probe that reads its parameters. -/
theorem keeps_returning (t : Tracer) (p : Place) {value : Trace Expr} (hnames : names ⊆ env)
    (h : Keeps full value fun e => e.isScoped env = true) :
    Keeps full (returning t p names value) fun e => e.isScoped env = true := by
  refine (keeps_probe t .implicitReturn p names full).bind fun c hc => ?_
  refine h.bind fun e he => .pure ?_
  cases c with
  | none => exact he
  | some c =>
    have hcall := hc c rfl env hnames
    simp only [Probe.before, Expr.isScoped, Expr.areScoped, hcall, he, Bool.and_self]

end Trace

/-! ### Expressions without statements

In all of these `full` and `env` have nothing to do with each other. -/

mutual

theorem Expr.isScoped_of_isFlat (t : Tracer) (e : Expr) (full : ScopeStack) (env : List String)
    (h : e.isFlat = true) : Keeps full (e.instrument t) fun e => e.isScoped env = true := by
  cases e with
  | template p chunks parts =>
    exact (Expr.areScoped_of_areFlat t parts full env h).bind fun _ hparts => .pure hparts
  | tagged p tag chunks parts =>
    obtain ⟨htag, hparts⟩ := Bool.and_eq_true_iff.1 h
    refine (Expr.isScoped_of_isFlat t tag full env htag).bind fun _ htag => ?_
    refine (Expr.areScoped_of_areFlat t parts full env hparts).bind fun _ hparts => ?_
    exact .pure (Bool.and_eq_true_iff.2 ⟨htag, hparts⟩)
  | array p items | sequence p items =>
    exact (Expr.areScoped_of_areFlat t items full env h).bind fun _ hitems => .pure hitems
  | object p members =>
    exact (Property.areScoped_of_areFlat t members full env h).bind fun _ hmembers => .pure hmembers
  | func | classExpr => cases h
  | arrow p a ps b =>
    obtain ⟨hps, hb⟩ := Bool.and_eq_true_iff.1 h
    have hps := fun full env => Pat.areScoped_of_areFlat t ps full env hps
    have hb := fun full => ArrowBody.isScoped_of_isFlat t b p (Pat.boundNamesOf ps) full
      (Pat.boundNamesOf ps ++ env) hb (List.subset_append_left _ _)
    refine Leads.inFunction (Pat.boundNamesOf ps) ?_
    refine (hps _ (Pat.boundNamesOf ps ++ env)).traced.bind fun _ ⟨hps, s, hs⟩ => ?_
    refine (hb _).bind fun _ hb => .pure ?_
    rw [← hs] at hps ⊢
    rw [Expr.isScoped, Pat.boundNamesOf_instruments]
    exact Bool.and_eq_true_iff.2 ⟨hps, hb⟩
  | unary p op e | update p op pre e | member p l e n | paren p e | await p e | spread p e
  | ascribed p how e =>
    exact (Expr.isScoped_of_isFlat t e full env h).bind fun _ he => .pure he
  | binary p op l r | index p op l r =>
    obtain ⟨hl, hr⟩ := Bool.and_eq_true_iff.1 h
    refine (Expr.isScoped_of_isFlat t l full env hl).bind fun _ hl => ?_
    refine (Expr.isScoped_of_isFlat t r full env hr).bind fun _ hr => ?_
    exact .pure (Bool.and_eq_true_iff.2 ⟨hl, hr⟩)
  | assign p op q e =>
    obtain ⟨hq, he⟩ := Bool.and_eq_true_iff.1 h
    refine (Pat.isScoped_of_isFlat t q full env hq).bind fun _ hq => ?_
    refine (Expr.isScoped_of_isFlat t e full env he).bind fun _ he => ?_
    exact .pure (Bool.and_eq_true_iff.2 ⟨hq, he⟩)
  | cond p a b c =>
    obtain ⟨hab, hc⟩ := Bool.and_eq_true_iff.1 h
    obtain ⟨ha, hb⟩ := Bool.and_eq_true_iff.1 hab
    refine (Expr.isScoped_of_isFlat t a full env ha).bind fun _ ha => ?_
    refine (Expr.isScoped_of_isFlat t b full env hb).bind fun _ hb => ?_
    refine (Expr.isScoped_of_isFlat t c full env hc).bind fun _ hc => ?_
    exact .pure (Bool.and_eq_true_iff.2 ⟨Bool.and_eq_true_iff.2 ⟨ha, hb⟩, hc⟩)
  | call p l e args =>
    obtain ⟨hpe, hargs⟩ := Bool.and_eq_true_iff.1 h
    obtain ⟨hp, he⟩ := Bool.and_eq_true_iff.1 hpe
    refine (Expr.isScoped_of_isFlat t e full env he).traced.bind fun e' ⟨he, s, hs⟩ => ?_
    refine (Expr.areScoped_of_areFlat t args full env hargs).bind fun args' hargs => ?_
    rw [← isProbeCall_instrument t p e s, hs] at hp
    exact .pure (Bool.and_eq_true_iff.2
      ⟨Bool.and_eq_true_iff.2 ⟨binds_captures hp env args', he⟩, hargs⟩)
  | construct p e hasArgs args =>
    obtain ⟨he, hargs⟩ := Bool.and_eq_true_iff.1 h
    refine (Expr.isScoped_of_isFlat t e full env he).bind fun _ he => ?_
    refine (Expr.areScoped_of_areFlat t args full env hargs).bind fun _ hargs => ?_
    exact .pure (Bool.and_eq_true_iff.2 ⟨he, hargs⟩)
  | yield p d e => exact (Expr.isScoped?_of_isFlat? t e full env h).bind fun _ he => .pure he
  | element p n c as_ cs =>
    obtain ⟨has, hcs⟩ := Bool.and_eq_true_iff.1 h
    refine (JsxPart.areScoped_of_areFlat t as_ full env has).bind fun _ has => ?_
    refine (JsxPart.areScoped_of_areFlat t cs full env hcs).bind fun _ hcs => ?_
    exact .pure (Bool.and_eq_true_iff.2 ⟨has, hcs⟩)
  | this | superRef | importRef | ident | literal | metaProperty | elision => exact .pure rfl

theorem Expr.areScoped_of_areFlat (t : Tracer) (es : List Expr) (full : ScopeStack)
    (env : List String) (h : Expr.areFlat es = true) :
    Keeps full (Expr.instruments t es) fun es => Expr.areScoped env es = true := by
  cases es with
  | nil => exact .pure rfl
  | cons e r =>
    obtain ⟨he, hr⟩ := Bool.and_eq_true_iff.1 h
    refine (Expr.isScoped_of_isFlat t e full env he).bind fun _ he => ?_
    refine (Expr.areScoped_of_areFlat t r full env hr).bind fun _ hr => ?_
    exact .pure (Bool.and_eq_true_iff.2 ⟨he, hr⟩)

theorem Expr.isScoped?_of_isFlat? (t : Tracer) (e : Option Expr) (full : ScopeStack)
    (env : List String) (h : Expr.isFlat? e = true) :
    Keeps full (Expr.instrument? t e) fun e => Expr.isScoped? env e = true := by
  cases e with
  | none => exact .pure rfl
  | some e => exact (Expr.isScoped_of_isFlat t e full env h).bind fun _ he => .pure he

theorem JsxPart.isScoped_of_isFlat (t : Tracer) (p : JsxPart) (full : ScopeStack) (env : List String)
    (h : p.isFlat = true) : Keeps full (p.instrument t) fun p => p.isScoped env = true := by
  match p with
  | .attribute n none | .text v => exact .pure rfl
  | .attribute n (some v) =>
    exact (JsxPart.isScoped_of_isFlat t v full env h).bind fun _ hv => .pure hv
  | .spread e | .child e => exact (Expr.isScoped_of_isFlat t e full env h).bind fun _ he => .pure he
  | .container e => exact (Expr.isScoped?_of_isFlat? t e full env h).bind fun _ he => .pure he

theorem JsxPart.areScoped_of_areFlat (t : Tracer) (ps : List JsxPart) (full : ScopeStack)
    (env : List String) (h : JsxPart.areFlat ps = true) :
    Keeps full (JsxPart.instruments t ps) fun ps => JsxPart.areScoped env ps = true := by
  cases ps with
  | nil => exact .pure rfl
  | cons p r =>
    obtain ⟨hp, hr⟩ := Bool.and_eq_true_iff.1 h
    refine (JsxPart.isScoped_of_isFlat t p full env hp).bind fun _ hp => ?_
    refine (JsxPart.areScoped_of_areFlat t r full env hr).bind fun _ hr => ?_
    exact .pure (Bool.and_eq_true_iff.2 ⟨hp, hr⟩)

theorem Property.isScoped_of_isFlat (t : Tracer) (p : Property) (full : ScopeStack)
    (env : List String) (h : p.isFlat = true) :
    Keeps full (p.instrument t) fun p => p.isScoped env = true := by
  cases p with
  | shorthand n e => exact (Expr.isScoped?_of_isFlat? t e full env h).bind fun _ he => .pure he
  | keyValue k e =>
    obtain ⟨hk, he⟩ := Bool.and_eq_true_iff.1 h
    refine (Key.isScoped_of_isFlat t k full env hk).bind fun _ hk => ?_
    refine (Expr.isScoped_of_isFlat t e full env he).bind fun _ he => ?_
    exact .pure (Bool.and_eq_true_iff.2 ⟨hk, he⟩)
  | method | getter | setter => cases h
  | spread p e => exact (Expr.isScoped_of_isFlat t e full env h).bind fun _ he => .pure he

theorem Property.areScoped_of_areFlat (t : Tracer) (ps : List Property) (full : ScopeStack)
    (env : List String) (h : Property.areFlat ps = true) :
    Keeps full (Property.instruments t ps) fun ps => Property.areScoped env ps = true := by
  cases ps with
  | nil => exact .pure rfl
  | cons p r =>
    obtain ⟨hp, hr⟩ := Bool.and_eq_true_iff.1 h
    refine (Property.isScoped_of_isFlat t p full env hp).bind fun _ hp => ?_
    refine (Property.areScoped_of_areFlat t r full env hr).bind fun _ hr => ?_
    exact .pure (Bool.and_eq_true_iff.2 ⟨hp, hr⟩)

theorem Key.isScoped_of_isFlat (t : Tracer) (k : Key) (full : ScopeStack) (env : List String)
    (h : k.isFlat = true) : Keeps full (k.instrument t) fun k => k.isScoped env = true := by
  cases k with
  | computed p e => exact (Expr.isScoped_of_isFlat t e full env h).bind fun _ he => .pure he
  | name | literal => exact .pure rfl

theorem Pat.isScoped_of_isFlat (t : Tracer) (q : Pat) (full : ScopeStack) (env : List String)
    (h : q.isFlat = true) : Keeps full (q.instrument t) fun q => q.isScoped env = true := by
  cases q with
  | ident | elision => exact .pure rfl
  | array p items =>
    exact (Pat.areScoped_of_areFlat t items full env h).bind fun _ hitems => .pure hitems
  | object p members =>
    exact (PatProperty.areScoped_of_areFlat t members full env h).bind fun _ hmembers =>
      .pure hmembers
  | rest p q => exact (Pat.isScoped_of_isFlat t q full env h).bind fun _ hq => .pure hq
  | withDefault p q e =>
    obtain ⟨hq, he⟩ := Bool.and_eq_true_iff.1 h
    refine (Pat.isScoped_of_isFlat t q full env hq).bind fun _ hq => ?_
    refine (Expr.isScoped_of_isFlat t e full env he).bind fun _ he => ?_
    exact .pure (Bool.and_eq_true_iff.2 ⟨hq, he⟩)
  | expr e => exact (Expr.isScoped_of_isFlat t e full env h).bind fun _ he => .pure he

theorem Pat.areScoped_of_areFlat (t : Tracer) (qs : List Pat) (full : ScopeStack) (env : List String)
    (h : Pat.areFlat qs = true) :
    Keeps full (Pat.instruments t qs) fun qs => Pat.areScoped env qs = true := by
  cases qs with
  | nil => exact .pure rfl
  | cons q r =>
    obtain ⟨hq, hr⟩ := Bool.and_eq_true_iff.1 h
    refine (Pat.isScoped_of_isFlat t q full env hq).bind fun _ hq => ?_
    refine (Pat.areScoped_of_areFlat t r full env hr).bind fun _ hr => ?_
    exact .pure (Bool.and_eq_true_iff.2 ⟨hq, hr⟩)

theorem PatProperty.isScoped_of_isFlat (t : Tracer) (p : PatProperty) (full : ScopeStack)
    (env : List String) (h : p.isFlat = true) :
    Keeps full (p.instrument t) fun p => p.isScoped env = true := by
  cases p with
  | keyValue k q =>
    obtain ⟨hk, hq⟩ := Bool.and_eq_true_iff.1 h
    refine (Key.isScoped_of_isFlat t k full env hk).bind fun _ hk => ?_
    refine (Pat.isScoped_of_isFlat t q full env hq).bind fun _ hq => ?_
    exact .pure (Bool.and_eq_true_iff.2 ⟨hk, hq⟩)
  | shorthand p n e => exact (Expr.isScoped?_of_isFlat? t e full env h).bind fun _ he => .pure he
  | rest p q => exact (Pat.isScoped_of_isFlat t q full env h).bind fun _ hq => .pure hq

theorem PatProperty.areScoped_of_areFlat (t : Tracer) (ps : List PatProperty) (full : ScopeStack)
    (env : List String) (h : PatProperty.areFlat ps = true) :
    Keeps full (PatProperty.instruments t ps) fun ps => PatProperty.areScoped env ps = true := by
  cases ps with
  | nil => exact .pure rfl
  | cons p r =>
    obtain ⟨hp, hr⟩ := Bool.and_eq_true_iff.1 h
    refine (PatProperty.isScoped_of_isFlat t p full env hp).bind fun _ hp => ?_
    refine (PatProperty.areScoped_of_areFlat t r full env hr).bind fun _ hr => ?_
    exact .pure (Bool.and_eq_true_iff.2 ⟨hp, hr⟩)

theorem ArrowBody.isScoped_of_isFlat (t : Tracer) (b : ArrowBody) (p : Place) (names : List String)
    (full : ScopeStack) (env : List String) (h : b.isFlat = true) (hnames : names ⊆ env) :
    Keeps full (b.instrument t p names) fun b => b.isScoped env = true := by
  cases b with
  | block => cases h
  | expr e =>
    exact (keeps_returning t p hnames (Expr.isScoped_of_isFlat t e full env h)).bind fun _ he => .pure he

end

end StepTrace.Script
