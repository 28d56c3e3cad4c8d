import StepTrace.Proofs.Script.Flat

/-!
Probes read what is in scope. A probe is put where the scopes of the traversal hold no name that is not
bound there, so in a plain program with probes each of them reads only names that are bound where it stands.
-/
namespace StepTrace.Script

open Trace ScopeStack

/-! ### Steps of a traversal -/

theorem Stmt.areScoped_eq_all (env : List String) (ss : List Stmt) :
    Stmt.areScoped env ss = ss.all (Stmt.isScoped env) := by
  induction ss with
  | nil => rfl
  | cons s r ih => exact congr(s.isScoped env && $ih)

theorem Stmt.areScoped_append (env : List String) (ss ss' : List Stmt) :
    Stmt.areScoped env (ss ++ ss') = (Stmt.areScoped env ss && Stmt.areScoped env ss') := by
  simp only [Stmt.areScoped_eq_all, List.all_append]

theorem areScoped_insertAfterDirectives {env : List String} {new ss : List Stmt}
    (hnew : Stmt.areScoped env new = true) (hss : Stmt.areScoped env ss = true) :
    Stmt.areScoped env (Stmt.insertAfterDirectives new ss) = true := by
  rw [Stmt.areScoped_eq_all] at hnew hss ⊢
  exact all_insertAfterDirectives hnew hss

namespace Trace

variable {full : ScopeStack} {env names : List String}

theorem keeps_declareVars (d : VarDecl) (hvars : full.HoldsVars d.varNames)
    (hlexical : full.Holds d.lexicalNames) : Keeps full (declareVars d) fun _ => True := by
  intro s hs
  cases d with
  | mk p kind b items =>
    cases kind with
    | var => exact ⟨hs.declareVars hvars, trivial⟩
    | «let» | const => exact ⟨hs.declareAll hlexical, trivial⟩
    | «using» | awaitUsing => exact ⟨hs, trivial⟩

/-- The head of a loop declares its names in the scope of the loop. -/
theorem keeps_declareHead (h : LoopHead) (full : ScopeStack) (hvars : full.HoldsVars h.varNames) :
    Keeps (⟨.block, h.lexicalNames⟩ :: full) (declareHead h) fun _ => True := by
  cases h with
  | varDecl d => exact keeps_declareVars d hvars (List.Subset.refl _)
  | none | pat | expr => exact .pure trivial

theorem keeps_stmtProbe (t : Tracer) (p : Place) (full : ScopeStack) :
    Keeps full (stmtProbe t p) fun new => Stmt.areScoped full.names new = true := by
  intro s hs
  obtain ⟨hb, hc⟩ := keeps_probe t .statement p s.scopes.visible full s hs
  refine ⟨hb, ?_⟩
  cases p with
  | none => rfl
  | some span =>
    have hcall := hc _ rfl full.names hs.visible_subset
    exact Bool.and_eq_true_iff.2 ⟨hcall, rfl⟩

/-- A statement is followed by nothing or by a probe that reads what is in scope. -/
theorem keeps_after {Q : List Stmt → Prop} (t : Tracer) (st : Stmt) (hvars : full.HoldsVars st.varNames)
    (hlexical : full.Holds st.lexicalNames) (hprobe : ∀ p, Keeps full (stmtProbe t p) Q)
    (hnone : Q []) : Keeps full (after t st) Q := by
  unfold after
  split
  · next d =>
    refine (keeps_declareVars d hvars hlexical).bind fun _ _ => ?_
    split
    · exact .pure hnone
    · exact hprobe _
  · next p d => exact (keeps_declareVars d hvars hlexical).bind fun _ _ => hprobe _
  · split
    · exact .pure hnone
    · exact hprobe _
  · exact .pure hnone

/-- The body of a function, after a probe that reads its parameters. -/
theorem keeps_entering (t : Tracer) (p : Place) {body : Trace Block} (hnames : names ⊆ env)
    (h : Keeps full body fun b => b.isScoped env = true) :
    Keeps full (entering t p names body) fun b => b.isScoped env = true := by
  refine (keeps_probe t .entry p names full).bind fun c hc => ?_
  refine h.bind fun b hb => ?_
  cases b with
  | mk q ss =>
    have hnew : (c.map Probe.stmt).toList.flatMap Stmt.lexicalNames = [] := by
      cases c <;> rfl
    have hlexical : Stmt.lexicalNamesOf (Stmt.insertAfterDirectives (c.map Probe.stmt).toList ss) =
        Stmt.lexicalNamesOf ss := flatMap_insertAfterDirectives hnew ss
    refine .pure ?_
    unfold Block.isScoped at hb ⊢
    rw [hlexical]
    refine areScoped_insertAfterDirectives ?_ hb
    cases c with
    | none => rfl
    | some c =>
      have hcall := hc c rfl _ (List.subset_append_of_subset_right (Stmt.lexicalNamesOf ss) hnames)
      exact Bool.and_eq_true_iff.2 ⟨hcall, rfl⟩

/-- What stands outside of a function may be traversed in its scope, if it does not matter which scopes it
is traversed in or if the scope has no names. -/
theorem keeps_outside {α : Type} {m : Trace α} {Q : List String → α → Prop} {isFlat : Bool}
    (hflat : (names.isEmpty || isFlat) = true)
    (hany : isFlat = true → ∀ full env, Keeps full m (Q env))
    (h : ∀ full : ScopeStack, Keeps full m (Q full.names)) (full : ScopeStack) :
    Keeps (⟨.function, names⟩ :: full) m (Q full.names) := by
  rcases Bool.or_eq_true_iff.1 hflat with hempty | hf
  · rw [List.isEmpty_iff.1 hempty]
    exact h (⟨.function, []⟩ :: full)
  · exact hany hf _ _

end Trace

/-! ### The parts of a program -/

mutual

theorem Expr.isScoped_instrument (t : Tracer) (e : Expr) (full : ScopeStack)
    (h : e.isPlain = true) : Keeps full (e.instrument t) fun e => e.isScoped full.names = true := by
  cases e with
  | template p chunks parts =>
    exact (Expr.areScoped_instruments t parts full h).bind fun _ hparts => .pure hparts
  | tagged p tag chunks parts =>
    obtain ⟨htag, hparts⟩ := Bool.and_eq_true_iff.1 h
    refine (Expr.isScoped_instrument t tag full htag).bind fun _ htag => ?_
    refine (Expr.areScoped_instruments t parts full hparts).bind fun _ hparts => ?_
    exact .pure (Bool.and_eq_true_iff.2 ⟨htag, hparts⟩)
  | array p items | sequence p items =>
    exact (Expr.areScoped_instruments t items full h).bind fun _ hitems => .pure hitems
  | object p members =>
    exact (Property.areScoped_instruments t members full h).bind fun _ hmembers => .pure hmembers
  | func n f => exact (Function.isScoped_instrument t f full h).bind fun _ hf => .pure hf
  | classExpr n c => exact (Class.isScoped_instrument t c full h).bind fun _ hc => .pure hc
  | arrow p a ps b =>
    obtain ⟨hps, hb⟩ := Bool.and_eq_true_iff.1 h
    have hps := Pat.areScoped_instruments t ps (⟨.function, Pat.boundNamesOf ps⟩ :: full) hps
    have hb := ArrowBody.isScoped_instrument t b p (Pat.boundNamesOf ps) full hb
    refine Leads.inFunction (b.varNames ++ Pat.boundNamesOf ps) ?_
    refine hps.traced.bind fun _ ⟨hps, s, hs⟩ => ?_
    refine (hb.raise (.widen full (List.subset_append_right _ _))).bind fun _ hb => .pure ?_
    rw [← hs] at hps ⊢
    rw [Expr.isScoped, Pat.boundNamesOf_instruments]
    exact Bool.and_eq_true_iff.2 ⟨hps, hb⟩
  | unary p op e | update p op pre e | member p l e n | paren p e | await p e | spread p e
  | ascribed p how e =>
    exact (Expr.isScoped_instrument t e full h).bind fun _ he => .pure he
  | binary p op l r | index p op l r =>
    obtain ⟨hl, hr⟩ := Bool.and_eq_true_iff.1 h
    refine (Expr.isScoped_instrument t l full hl).bind fun _ hl => ?_
    refine (Expr.isScoped_instrument t r full hr).bind fun _ hr => ?_
    exact .pure (Bool.and_eq_true_iff.2 ⟨hl, hr⟩)
  | assign p op q e =>
    obtain ⟨hq, he⟩ := Bool.and_eq_true_iff.1 h
    refine (Pat.isScoped_instrument t q full hq).bind fun _ hq => ?_
    refine (Expr.isScoped_instrument t e full he).bind fun _ he => ?_
    exact .pure (Bool.and_eq_true_iff.2 ⟨hq, he⟩)
  | cond p a b c =>
    obtain ⟨hab, hc⟩ := Bool.and_eq_true_iff.1 h
    obtain ⟨ha, hb⟩ := Bool.and_eq_true_iff.1 hab
    refine (Expr.isScoped_instrument t a full ha).bind fun _ ha => ?_
    refine (Expr.isScoped_instrument t b full hb).bind fun _ hb => ?_
    refine (Expr.isScoped_instrument t c full hc).bind fun _ hc => ?_
    exact .pure (Bool.and_eq_true_iff.2 ⟨Bool.and_eq_true_iff.2 ⟨ha, hb⟩, hc⟩)
  | call p l e args =>
    obtain ⟨hpe, hargs⟩ := Bool.and_eq_true_iff.1 h
    obtain ⟨hp, he⟩ := Bool.and_eq_true_iff.1 hpe
    refine (Expr.isScoped_instrument t e full he).traced.bind fun e' ⟨he, s, hs⟩ => ?_
    refine (Expr.areScoped_instruments t args full hargs).bind fun args' hargs => ?_
    rw [← isProbeCall_instrument t p e s, hs] at hp
    exact .pure (Bool.and_eq_true_iff.2
      ⟨Bool.and_eq_true_iff.2 ⟨binds_captures hp full.names args', he⟩, hargs⟩)
  | construct p e hasArgs args =>
    obtain ⟨he, hargs⟩ := Bool.and_eq_true_iff.1 h
    refine (Expr.isScoped_instrument t e full he).bind fun _ he => ?_
    refine (Expr.areScoped_instruments t args full hargs).bind fun _ hargs => ?_
    exact .pure (Bool.and_eq_true_iff.2 ⟨he, hargs⟩)
  | yield p d e => exact (Expr.isScoped?_instrument? t e full h).bind fun _ he => .pure he
  | element p n c as_ cs =>
    obtain ⟨has, hcs⟩ := Bool.and_eq_true_iff.1 h
    refine (JsxPart.areScoped_instruments t as_ full has).bind fun _ has => ?_
    refine (JsxPart.areScoped_instruments t cs full hcs).bind fun _ hcs => ?_
    exact .pure (Bool.and_eq_true_iff.2 ⟨has, hcs⟩)
  | this | superRef | importRef | ident | literal | metaProperty | elision => exact .pure rfl

theorem Expr.areScoped_instruments (t : Tracer) (es : List Expr) (full : ScopeStack)
    (h : Expr.arePlain es = true) :
    Keeps full (Expr.instruments t es) fun es => Expr.areScoped full.names es = true := by
  cases es with
  | nil => exact .pure rfl
  | cons e r =>
    obtain ⟨he, hr⟩ := Bool.and_eq_true_iff.1 h
    refine (Expr.isScoped_instrument t e full he).bind fun _ he => ?_
    refine (Expr.areScoped_instruments t r full hr).bind fun _ hr => ?_
    exact .pure (Bool.and_eq_true_iff.2 ⟨he, hr⟩)

theorem Expr.isScoped?_instrument? (t : Tracer) (e : Option Expr) (full : ScopeStack)
    (h : Expr.isPlain? e = true) :
    Keeps full (Expr.instrument? t e) fun e => Expr.isScoped? full.names e = true := by
  cases e with
  | none => exact .pure rfl
  | some e => exact (Expr.isScoped_instrument t e full h).bind fun _ he => .pure he

theorem JsxPart.isScoped_instrument (t : Tracer) (p : JsxPart) (full : ScopeStack)
    (h : p.isPlain = true) : Keeps full (p.instrument t) fun p => p.isScoped full.names = true := by
  match p with
  | .attribute n none | .text v => exact .pure rfl
  | .attribute n (some v) => exact (JsxPart.isScoped_instrument t v full h).bind fun _ hv => .pure hv
  | .spread e | .child e => exact (Expr.isScoped_instrument t e full h).bind fun _ he => .pure he
  | .container e => exact (Expr.isScoped?_instrument? t e full h).bind fun _ he => .pure he

theorem JsxPart.areScoped_instruments (t : Tracer) (ps : List JsxPart) (full : ScopeStack)
    (h : JsxPart.arePlain ps = true) :
    Keeps full (JsxPart.instruments t ps) fun ps => JsxPart.areScoped full.names ps = true := by
  cases ps with
  | nil => exact .pure rfl
  | cons p r =>
    obtain ⟨hp, hr⟩ := Bool.and_eq_true_iff.1 h
    refine (JsxPart.isScoped_instrument t p full hp).bind fun _ hp => ?_
    refine (JsxPart.areScoped_instruments t r full hr).bind fun _ hr => ?_
    exact .pure (Bool.and_eq_true_iff.2 ⟨hp, hr⟩)

theorem Property.isScoped_instrument (t : Tracer) (p : Property) (full : ScopeStack)
    (h : p.isPlain = true) : Keeps full (p.instrument t) fun p => p.isScoped full.names = true := by
  cases p with
  | shorthand n e => exact (Expr.isScoped?_instrument? t e full h).bind fun _ he => .pure he
  | keyValue k e =>
    obtain ⟨hk, he⟩ := Bool.and_eq_true_iff.1 h
    refine (Key.isScoped_instrument t k full hk).bind fun _ hk => ?_
    refine (Expr.isScoped_instrument t e full he).bind fun _ he => ?_
    exact .pure (Bool.and_eq_true_iff.2 ⟨hk, he⟩)
  | method k f =>
    obtain ⟨hk, hf⟩ := Bool.and_eq_true_iff.1 h
    refine (Key.isScoped_instrument t k full hk).bind fun _ hk => ?_
    refine (Function.isScoped_instrument t f full hf).bind fun _ hf => ?_
    exact .pure (Bool.and_eq_true_iff.2 ⟨hk, hf⟩)
  | getter p k b =>
    obtain ⟨hk, hb⟩ := Bool.and_eq_true_iff.1 h
    have hk := Key.isScoped_instrument t k (⟨.function, []⟩ :: full) hk
    have hb := Block.isScoped_instrument t b (⟨.function, b.varNames⟩ :: full) hb (List.Subset.refl _)
    refine Leads.inFunction b.varNames (hk.bind fun _ hk => ?_)
    have hb := hb.traced.raise (.widen full (List.nil_subset _))
    refine hb.bind fun _ ⟨hb, s, hs⟩ => .pure ?_
    rw [← hs] at hb ⊢
    rw [Property.isScoped, Block.varNames_instrument]
    exact Bool.and_eq_true_iff.2 ⟨hk, hb⟩
  | setter p k q b =>
    obtain ⟨hkq, hb⟩ := Bool.and_eq_true_iff.1 h
    obtain ⟨hk, hq⟩ := Bool.and_eq_true_iff.1 hkq
    obtain ⟨hflat, hk⟩ := Bool.and_eq_true_iff.1 hk
    have hk := keeps_outside hflat (fun hf full env => Key.isScoped_of_isFlat t k full env hf)
      (fun full => Key.isScoped_instrument t k full hk) full
    have hq := Pat.isScoped_instrument t q (⟨.function, q.boundNames⟩ :: full) hq
    have hb := Block.isScoped_instrument t b (⟨.function, b.varNames ++ q.boundNames⟩ :: full) hb
      (List.subset_append_left _ _)
    refine Leads.inFunction (b.varNames ++ q.boundNames) (hk.bind fun _ hk => ?_)
    refine hq.traced.bind fun _ ⟨hq, s, hs⟩ => ?_
    have hb := hb.traced.raise (.widen full (List.subset_append_right _ _))
    refine hb.bind fun _ ⟨hb, s', hs'⟩ => .pure ?_
    rw [← hs] at hq ⊢
    rw [← hs'] at hb ⊢
    rw [Property.isScoped, Pat.boundNames_instrument, Block.varNames_instrument, ← List.append_assoc]
    exact Bool.and_eq_true_iff.2 ⟨Bool.and_eq_true_iff.2 ⟨hk, hq⟩, hb⟩
  | spread p e => exact (Expr.isScoped_instrument t e full h).bind fun _ he => .pure he

theorem Property.areScoped_instruments (t : Tracer) (ps : List Property) (full : ScopeStack)
    (h : Property.arePlain ps = true) :
    Keeps full (Property.instruments t ps) fun ps => Property.areScoped full.names ps = true := by
  cases ps with
  | nil => exact .pure rfl
  | cons p r =>
    obtain ⟨hp, hr⟩ := Bool.and_eq_true_iff.1 h
    refine (Property.isScoped_instrument t p full hp).bind fun _ hp => ?_
    refine (Property.areScoped_instruments t r full hr).bind fun _ hr => ?_
    exact .pure (Bool.and_eq_true_iff.2 ⟨hp, hr⟩)

theorem Key.isScoped_instrument (t : Tracer) (k : Key) (full : ScopeStack) (h : k.isPlain = true) :
    Keeps full (k.instrument t) fun k => k.isScoped full.names = true := by
  cases k with
  | computed p e => exact (Expr.isScoped_instrument t e full h).bind fun _ he => .pure he
  | name | literal => exact .pure rfl

theorem Pat.isScoped_instrument (t : Tracer) (q : Pat) (full : ScopeStack) (h : q.isPlain = true) :
    Keeps full (q.instrument t) fun q => q.isScoped full.names = true := by
  cases q with
  | ident | elision => exact .pure rfl
  | array p items => exact (Pat.areScoped_instruments t items full h).bind fun _ hitems => .pure hitems
  | object p members =>
    exact (PatProperty.areScoped_instruments t members full h).bind fun _ hmembers => .pure hmembers
  | rest p q => exact (Pat.isScoped_instrument t q full h).bind fun _ hq => .pure hq
  | withDefault p q e =>
    obtain ⟨hq, he⟩ := Bool.and_eq_true_iff.1 h
    refine (Pat.isScoped_instrument t q full hq).bind fun _ hq => ?_
    refine (Expr.isScoped_instrument t e full he).bind fun _ he => ?_
    exact .pure (Bool.and_eq_true_iff.2 ⟨hq, he⟩)
  | expr e => exact (Expr.isScoped_instrument t e full h).bind fun _ he => .pure he

theorem Pat.areScoped_instruments (t : Tracer) (qs : List Pat) (full : ScopeStack)
    (h : Pat.arePlain qs = true) :
    Keeps full (Pat.instruments t qs) fun qs => Pat.areScoped full.names qs = true := by
  cases qs with
  | nil => exact .pure rfl
  | cons q r =>
    obtain ⟨hq, hr⟩ := Bool.and_eq_true_iff.1 h
    refine (Pat.isScoped_instrument t q full hq).bind fun _ hq => ?_
    refine (Pat.areScoped_instruments t r full hr).bind fun _ hr => ?_
    exact .pure (Bool.and_eq_true_iff.2 ⟨hq, hr⟩)

theorem Pat.isScoped?_instrument? (t : Tracer) (q : Option Pat) (full : ScopeStack)
    (h : Pat.isPlain? q = true) :
    Keeps full (Pat.instrument? t q) fun q => Pat.isScoped? full.names q = true := by
  cases q with
  | none => exact .pure rfl
  | some q => exact (Pat.isScoped_instrument t q full h).bind fun _ hq => .pure hq

theorem PatProperty.isScoped_instrument (t : Tracer) (p : PatProperty) (full : ScopeStack)
    (h : p.isPlain = true) : Keeps full (p.instrument t) fun p => p.isScoped full.names = true := by
  cases p with
  | keyValue k q =>
    obtain ⟨hk, hq⟩ := Bool.and_eq_true_iff.1 h
    refine (Key.isScoped_instrument t k full hk).bind fun _ hk => ?_
    refine (Pat.isScoped_instrument t q full hq).bind fun _ hq => ?_
    exact .pure (Bool.and_eq_true_iff.2 ⟨hk, hq⟩)
  | shorthand p n e => exact (Expr.isScoped?_instrument? t e full h).bind fun _ he => .pure he
  | rest p q => exact (Pat.isScoped_instrument t q full h).bind fun _ hq => .pure hq

theorem PatProperty.areScoped_instruments (t : Tracer) (ps : List PatProperty) (full : ScopeStack)
    (h : PatProperty.arePlain ps = true) :
    Keeps full (PatProperty.instruments t ps) fun ps =>
      PatProperty.areScoped full.names ps = true := by
  cases ps with
  | nil => exact .pure rfl
  | cons p r =>
    obtain ⟨hp, hr⟩ := Bool.and_eq_true_iff.1 h
    refine (PatProperty.isScoped_instrument t p full hp).bind fun _ hp => ?_
    refine (PatProperty.areScoped_instruments t r full hr).bind fun _ hr => ?_
    exact .pure (Bool.and_eq_true_iff.2 ⟨hp, hr⟩)

theorem Function.isScoped_instrument (t : Tracer) (f : Function) (full : ScopeStack)
    (h : f.isPlain = true) : Keeps full (f.instrument t) fun f => f.isScoped full.names = true := by
  cases f with
  | mk p a g ds ps b =>
    obtain ⟨hdps, hb⟩ := Bool.and_eq_true_iff.1 h
    obtain ⟨hds, hps⟩ := Bool.and_eq_true_iff.1 hdps
    obtain ⟨hflat, hds⟩ := Bool.and_eq_true_iff.1 hds
    have hds := keeps_outside hflat (fun hf full env => Expr.areScoped_of_areFlat t ds full env hf)
      (fun full => Expr.areScoped_instruments t ds full hds) full
    have hps := Param.areScoped_instruments t ps (Param.boundNamesOf ps) full hps
    have hb := Block.isBodyScoped?_instrumentBody? t p (Param.boundNamesOf ps) b full hb
    refine Leads.inFunction (Block.varNames? b ++ Param.boundNamesOf ps) (hds.bind fun _ hds => ?_)
    refine hps.traced.bind fun _ ⟨hps, s, hs⟩ => ?_
    refine (hb.raise (.widen full (List.subset_append_right _ _))).bind fun _ hb => .pure ?_
    rw [← hs] at hps ⊢
    rw [Function.isScoped, Param.boundNamesOf_instruments]
    exact Bool.and_eq_true_iff.2 ⟨Bool.and_eq_true_iff.2 ⟨hds, hps⟩, hb⟩

/-- The body of a function; what it declares by `var` is in the scope of its parameters. -/
theorem Block.isBodyScoped?_instrumentBody? (t : Tracer) (p : Place) (names : List String)
    (b : Option Block) (full : ScopeStack) (h : Block.isPlain? b = true) :
    Keeps (⟨.function, Block.varNames? b ++ names⟩ :: full) (Block.instrumentBody? t p names b)
      fun b => Block.isBodyScoped? (names ++ full.names) b = true := by
  cases b with
  | none => exact .pure rfl
  | some b =>
    have hb := Block.isScoped_instrument t b (⟨.function, b.varNames ++ names⟩ :: full) h
      (List.subset_append_left _ _)
    have hsub := subset_names_append .function b.varNames names full
    refine (keeps_entering t p hsub hb).traced.bind fun _ ⟨hb, s, hs⟩ => .pure ?_
    rw [← hs] at hb ⊢
    rw [Block.isBodyScoped?, Block.varNames_entering, ← List.append_assoc]
    exact hb

theorem Param.isScoped_instrument (t : Tracer) (p : Param) (names : List String) (full : ScopeStack)
    (h : p.isPlain names = true) :
    Keeps (⟨.function, names⟩ :: full) (p.instrument t) fun p =>
      p.isScoped full.names (names ++ full.names) = true := by
  cases p with
  | mk p ds i q =>
    obtain ⟨hds, hq⟩ := Bool.and_eq_true_iff.1 h
    obtain ⟨hflat, hds⟩ := Bool.and_eq_true_iff.1 hds
    have hds := keeps_outside hflat (fun hf full env => Expr.areScoped_of_areFlat t ds full env hf)
      (fun full => Expr.areScoped_instruments t ds full hds) full
    refine hds.bind fun _ hds => ?_
    refine (Pat.isScoped_instrument t q (⟨.function, names⟩ :: full) hq).bind fun _ hq => ?_
    exact .pure (Bool.and_eq_true_iff.2 ⟨hds, hq⟩)

theorem Param.areScoped_instruments (t : Tracer) (ps : List Param) (names : List String)
    (full : ScopeStack) (h : Param.arePlain names ps = true) :
    Keeps (⟨.function, names⟩ :: full) (Param.instruments t ps) fun ps =>
      Param.areScoped full.names (names ++ full.names) ps = true := by
  cases ps with
  | nil => exact .pure rfl
  | cons p r =>
    obtain ⟨hp, hr⟩ := Bool.and_eq_true_iff.1 h
    refine (Param.isScoped_instrument t p names full hp).bind fun _ hp => ?_
    refine (Param.areScoped_instruments t r names full hr).bind fun _ hr => ?_
    exact .pure (Bool.and_eq_true_iff.2 ⟨hp, hr⟩)

theorem ArrowBody.isScoped_instrument (t : Tracer) (b : ArrowBody) (p : Place) (names : List String)
    (full : ScopeStack) (h : b.isPlain = true) :
    Keeps (⟨.function, b.varNames ++ names⟩ :: full) (b.instrument t p names) fun b =>
      b.isScoped (names ++ full.names) = true := by
  cases b with
  | block b =>
    have hb := Block.isScoped_instrument t b (⟨.function, b.varNames ++ names⟩ :: full) h
      (List.subset_append_left _ _)
    have hsub := subset_names_append .function b.varNames names full
    refine (keeps_entering t p hsub hb).traced.bind fun _ ⟨hb, s, hs⟩ => .pure ?_
    rw [← hs] at hb ⊢
    rw [ArrowBody.isScoped, Block.varNames_entering, ← List.append_assoc]
    exact hb
  | expr e =>
    have he : Keeps (⟨.function, names⟩ :: full) (e.instrument t) fun e =>
        e.isScoped (names ++ full.names) = true :=
      Expr.isScoped_instrument t e (⟨.function, names⟩ :: full) h
    exact (keeps_returning t p (List.subset_append_left _ _) he).bind fun _ he => .pure he

theorem Block.isScoped_instrument (t : Tracer) (b : Block) (full : ScopeStack) (h : b.isPlain = true)
    (hvars : full.HoldsVars b.varNames) :
    Keeps full (b.instrument t) fun b => b.isScoped full.names = true := by
  cases b with
  | mk p ss =>
    have hss := Stmt.areScoped_instruments t ss (⟨.block, Stmt.lexicalNamesOf ss⟩ :: full) h hvars
      (List.Subset.refl _)
    refine Leads.inBlock (hss.traced.bind fun _ ⟨hss, s, hs⟩ => .pure ?_)
    rw [← hs] at hss ⊢
    rw [Block.isScoped, Stmt.lexicalNamesOf_instruments]
    exact hss

theorem Block.isScoped?_instrument? (t : Tracer) (b : Option Block) (full : ScopeStack)
    (h : Block.isPlain? b = true) (hvars : full.HoldsVars (Block.varNames? b)) :
    Keeps full (Block.instrument? t b) fun b => Block.isScoped? full.names b = true := by
  cases b with
  | none => exact .pure rfl
  | some b => exact (Block.isScoped_instrument t b full h hvars).bind fun _ hb => .pure hb

theorem Class.isScoped_instrument (t : Tracer) (c : Class) (full : ScopeStack)
    (h : c.isPlain = true) : Keeps full (c.instrument t) fun c => c.isScoped full.names = true := by
  cases c with
  | mk p ds members parent =>
    obtain ⟨hdm, hparent⟩ := Bool.and_eq_true_iff.1 h
    obtain ⟨hds, hmembers⟩ := Bool.and_eq_true_iff.1 hdm
    refine (Expr.areScoped_instruments t ds full hds).bind fun _ hds => ?_
    refine (ClassMember.areScoped_instruments t members full hmembers).bind fun _ hmembers => ?_
    refine (Expr.isScoped?_instrument? t parent full hparent).bind fun _ hparent => ?_
    exact .pure (Bool.and_eq_true_iff.2 ⟨Bool.and_eq_true_iff.2 ⟨hds, hmembers⟩, hparent⟩)

theorem ClassMember.isScoped_instrument (t : Tracer) (m : ClassMember) (full : ScopeStack)
    (h : m.isPlain = true) : Keeps full (m.instrument t) fun m => m.isScoped full.names = true := by
  cases m with
  | ctor p k ps b =>
    obtain ⟨hps, hb⟩ := Bool.and_eq_true_iff.1 h
    have hps := Param.areScoped_instruments t ps (Param.boundNamesOf ps) full hps
    have hb := Block.isBodyScoped?_instrumentBody? t p (Param.boundNamesOf ps) b full hb
    refine Leads.inFunction (Block.varNames? b ++ Param.boundNamesOf ps) ?_
    refine hps.traced.bind fun _ ⟨hps, s, hs⟩ => ?_
    refine (hb.raise (.widen full (List.subset_append_right _ _))).bind fun _ hb => .pure ?_
    rw [← hs] at hps ⊢
    rw [ClassMember.isScoped, Param.boundNamesOf_instruments]
    exact Bool.and_eq_true_iff.2 ⟨hps, hb⟩
  | method p k kind st e f =>
    obtain ⟨hk, hf⟩ := Bool.and_eq_true_iff.1 h
    refine (Key.isScoped_instrument t k full hk).bind fun _ hk => ?_
    refine (Function.isScoped_instrument t f full hf).bind fun _ hf => ?_
    exact .pure (Bool.and_eq_true_iff.2 ⟨hk, hf⟩)
  | property p k st e a v ds =>
    obtain ⟨hkv, hds⟩ := Bool.and_eq_true_iff.1 h
    obtain ⟨hk, hv⟩ := Bool.and_eq_true_iff.1 hkv
    refine (Key.isScoped_instrument t k full hk).bind fun _ hk => ?_
    refine (Expr.isScoped?_instrument? t v full hv).bind fun _ hv => ?_
    refine (Expr.areScoped_instruments t ds full hds).bind fun _ hds => ?_
    exact .pure (Bool.and_eq_true_iff.2 ⟨Bool.and_eq_true_iff.2 ⟨hk, hv⟩, hds⟩)
  | staticBlock p b =>
    obtain ⟨hempty, hb⟩ := Bool.and_eq_true_iff.1 h
    have hnone : b.varNames = [] := List.isEmpty_iff.1 hempty
    have hb := Block.isScoped_instrument t b full hb (hnone.symm ▸ holdsVars_nil full)
    refine hb.traced.bind fun _ ⟨hb, s, hs⟩ => .pure ?_
    rw [← hs] at hb ⊢
    rw [ClassMember.isScoped, Block.varNames_instrument, hnone]
    exact hb
  | empty p => exact .pure rfl

theorem ClassMember.areScoped_instruments (t : Tracer) (ms : List ClassMember) (full : ScopeStack)
    (h : ClassMember.arePlain ms = true) :
    Keeps full (ClassMember.instruments t ms) fun ms =>
      ClassMember.areScoped full.names ms = true := by
  cases ms with
  | nil => exact .pure rfl
  | cons m r =>
    obtain ⟨hm, hr⟩ := Bool.and_eq_true_iff.1 h
    refine (ClassMember.isScoped_instrument t m full hm).bind fun _ hm => ?_
    refine (ClassMember.areScoped_instruments t r full hr).bind fun _ hr => ?_
    exact .pure (Bool.and_eq_true_iff.2 ⟨hm, hr⟩)

theorem Stmt.isScoped_instrument (t : Tracer) (st : Stmt) (full : ScopeStack) (h : st.isPlain = true)
    (hvars : full.HoldsVars st.varNames) :
    Keeps full (st.instrument t) fun st => st.isScoped full.names = true := by
  cases st with
  | block b => exact (Block.isScoped_instrument t b full h hvars).bind fun _ hb => .pure hb
  | withObject p e st | whileLoop p e st | doWhileLoop p e st =>
    obtain ⟨he, hst⟩ := Bool.and_eq_true_iff.1 h
    refine (Expr.isScoped_instrument t e full he).bind fun _ he => ?_
    refine (Stmt.isScoped_instrument t st full hst hvars).bind fun _ hst => ?_
    exact .pure (Bool.and_eq_true_iff.2 ⟨he, hst⟩)
  | returnStmt p e => exact (Expr.isScoped?_instrument? t e full h).bind fun _ he => .pure he
  | labeled p l st | exportDecl p st =>
    exact (Stmt.isScoped_instrument t st full h hvars).bind fun _ hst => .pure hst
  | ifElse p e yes no =>
    obtain ⟨hey, hno⟩ := Bool.and_eq_true_iff.1 h
    obtain ⟨he, hyes⟩ := Bool.and_eq_true_iff.1 hey
    have hyes := Stmt.isScoped_instrument t yes full hyes (hvars.mono (List.subset_append_left _ _))
    have hno := Stmt.isScoped?_instrument? t no full hno (hvars.mono (List.subset_append_right _ _))
    refine (Expr.isScoped_instrument t e full he).bind fun _ he => ?_
    refine hyes.bind fun _ hyes => hno.bind fun _ hno => ?_
    exact .pure (Bool.and_eq_true_iff.2 ⟨Bool.and_eq_true_iff.2 ⟨he, hyes⟩, hno⟩)
  | switchOn p e cases =>
    obtain ⟨he, hcases⟩ := Bool.and_eq_true_iff.1 h
    have hcases := SwitchCase.areScoped_instruments t cases
      (⟨.block, SwitchCase.lexicalNamesOf cases⟩ :: full) hcases hvars (List.Subset.refl _)
    refine (Expr.isScoped_instrument t e full he).bind fun _ he => ?_
    refine (Leads.inBlock hcases).traced.bind fun _ ⟨hcases, s, hs⟩ => .pure ?_
    have hnames := SwitchCase.lexicalNamesOf_instruments t cases { s with scopes := s.scopes.push .block }
    rw [← hs] at hcases ⊢
    rw [← hnames] at hcases
    exact Bool.and_eq_true_iff.2 ⟨he, hcases⟩
  | throwStmt p e | expr p e | exportDefault p e =>
    exact (Expr.isScoped_instrument t e full h).bind fun _ he => .pure he
  | tryStmt p b c f =>
    obtain ⟨hbc, hf⟩ := Bool.and_eq_true_iff.1 h
    obtain ⟨hb, hc⟩ := Bool.and_eq_true_iff.1 hbc
    have hboth := hvars.mono (List.subset_append_left _ _)
    have hb := Block.isScoped_instrument t b full hb (hboth.mono (List.subset_append_left _ _))
    have hc := Catch.isScoped?_instrument? t c full hc (hboth.mono (List.subset_append_right _ _))
    have hf := Block.isScoped?_instrument? t f full hf (hvars.mono (List.subset_append_right _ _))
    refine hb.bind fun _ hb => hc.bind fun _ hc => hf.bind fun _ hf => ?_
    exact .pure (Bool.and_eq_true_iff.2 ⟨Bool.and_eq_true_iff.2 ⟨hb, hc⟩, hf⟩)
  | forLoop p head test update st =>
    obtain ⟨hhtu, hst⟩ := Bool.and_eq_true_iff.1 h
    obtain ⟨hht, hupdate⟩ := Bool.and_eq_true_iff.1 hhtu
    obtain ⟨hhead, htest⟩ := Bool.and_eq_true_iff.1 hht
    have hdeclare := keeps_declareHead head full (hvars.mono (List.subset_append_left _ _))
    have hhead := LoopHead.isScoped_instrument t head (⟨.block, head.lexicalNames⟩ :: full) hhead
    have htest := Expr.isScoped?_instrument? t test (⟨.block, head.lexicalNames⟩ :: full) htest
    have hupdate := Expr.isScoped?_instrument? t update (⟨.block, head.lexicalNames⟩ :: full) hupdate
    have hst := Stmt.isScoped_instrument t st (⟨.block, head.lexicalNames⟩ :: full) hst
      (hvars.mono (List.subset_append_right _ _))
    refine Leads.inBlock (hdeclare.bind fun _ _ => ?_)
    refine hhead.traced.bind fun _ ⟨hhead, s, hs⟩ => ?_
    refine htest.bind fun _ htest => hupdate.bind fun _ hupdate => hst.bind fun _ hst => .pure ?_
    rw [← hs] at hhead ⊢
    rw [Stmt.isScoped, (LoopHead.names_instrument t head s).2]
    exact Bool.and_eq_true_iff.2
      ⟨Bool.and_eq_true_iff.2 ⟨Bool.and_eq_true_iff.2 ⟨hhead, htest⟩, hupdate⟩, hst⟩
  | forIn p head e st | forOf p a head e st =>
    obtain ⟨hhe, hst⟩ := Bool.and_eq_true_iff.1 h
    obtain ⟨hhead, he⟩ := Bool.and_eq_true_iff.1 hhe
    have hdeclare := keeps_declareHead head full (hvars.mono (List.subset_append_left _ _))
    have hhead := LoopHead.isScoped_instrument t head (⟨.block, head.lexicalNames⟩ :: full) hhead
    have he := Expr.isScoped_instrument t e (⟨.block, head.lexicalNames⟩ :: full) he
    have hst := Stmt.isScoped_instrument t st (⟨.block, head.lexicalNames⟩ :: full) hst
      (hvars.mono (List.subset_append_right _ _))
    refine Leads.inBlock (hdeclare.bind fun _ _ => ?_)
    refine hhead.traced.bind fun _ ⟨hhead, s, hs⟩ => ?_
    refine he.bind fun _ he => hst.bind fun _ hst => .pure ?_
    rw [← hs] at hhead ⊢
    rw [Stmt.isScoped, (LoopHead.names_instrument t head s).2]
    exact Bool.and_eq_true_iff.2 ⟨Bool.and_eq_true_iff.2 ⟨hhead, he⟩, hst⟩
  | varDecl d => exact (VarDecl.isScoped_instrument t d full h).bind fun _ hd => .pure hd
  | func n f | exportDefaultFunc p n f =>
    exact (Function.isScoped_instrument t f full h).bind fun _ hf => .pure hf
  | classDecl n c | exportDefaultClass p n c =>
    exact (Class.isScoped_instrument t c full h).bind fun _ hc => .pure hc
  | empty | debugger | breakTo | continueTo | importNames | exportNames | exportAll | typed =>
    exact .pure rfl

theorem Stmt.isScoped?_instrument? (t : Tracer) (st : Option Stmt) (full : ScopeStack)
    (h : Stmt.isPlain? st = true) (hvars : full.HoldsVars (Stmt.varNames? st)) :
    Keeps full (Stmt.instrument? t st) fun st => Stmt.isScoped? full.names st = true := by
  cases st with
  | none => exact .pure rfl
  | some st => exact (Stmt.isScoped_instrument t st full h hvars).bind fun _ hst => .pure hst

/-- Statements with their probes, where all that they declare is bound. -/
theorem Stmt.areScoped_instruments (t : Tracer) (ss : List Stmt) (full : ScopeStack)
    (h : Stmt.arePlain ss = true) (hvars : full.HoldsVars (Stmt.varNamesOf ss))
    (hlexical : full.Holds (Stmt.lexicalNamesOf ss)) :
    Keeps full (Stmt.instruments t ss) fun ss => Stmt.areScoped full.names ss = true := by
  cases ss with
  | nil => exact .pure rfl
  | cons st r =>
    obtain ⟨hst, hr⟩ := Bool.and_eq_true_iff.1 h
    have hstVars := hvars.mono (List.subset_append_left _ _)
    have hstLexical := hlexical.mono (List.subset_append_left _ _)
    have hr := Stmt.areScoped_instruments t r full hr (hvars.mono (List.subset_append_right _ _))
      (hlexical.mono (List.subset_append_right _ _))
    refine (Stmt.isScoped_instrument t st full hst hstVars).traced.bind fun _ ⟨hst, s, hs⟩ => ?_
    rw [← Stmt.varNames_instrument t st s, hs] at hstVars
    rw [← Stmt.lexicalNames_instrument t st s, hs] at hstLexical
    have hafter := keeps_after t _ hstVars hstLexical (keeps_stmtProbe t · full) rfl
    refine hafter.bind fun _ hnew => hr.bind fun _ hr => .pure ?_
    rw [List.cons_append, Stmt.areScoped, Stmt.areScoped_append, hst, hnew, hr]
    rfl

theorem VarDecl.isScoped_instrument (t : Tracer) (d : VarDecl) (full : ScopeStack)
    (h : d.isPlain = true) : Keeps full (d.instrument t) fun d => d.isScoped full.names = true := by
  cases d with
  | mk p k d items =>
    exact (Declarator.areScoped_instruments t items full h).bind fun _ hitems => .pure hitems

theorem Declarator.isScoped_instrument (t : Tracer) (d : Declarator) (full : ScopeStack)
    (h : d.isPlain = true) : Keeps full (d.instrument t) fun d => d.isScoped full.names = true := by
  cases d with
  | mk p q e =>
    obtain ⟨hq, he⟩ := Bool.and_eq_true_iff.1 h
    refine (Pat.isScoped_instrument t q full hq).bind fun _ hq => ?_
    refine (Expr.isScoped?_instrument? t e full he).bind fun _ he => ?_
    exact .pure (Bool.and_eq_true_iff.2 ⟨hq, he⟩)

theorem Declarator.areScoped_instruments (t : Tracer) (ds : List Declarator) (full : ScopeStack)
    (h : Declarator.arePlain ds = true) :
    Keeps full (Declarator.instruments t ds) fun ds => Declarator.areScoped full.names ds = true := by
  cases ds with
  | nil => exact .pure rfl
  | cons d r =>
    obtain ⟨hd, hr⟩ := Bool.and_eq_true_iff.1 h
    refine (Declarator.isScoped_instrument t d full hd).bind fun _ hd => ?_
    refine (Declarator.areScoped_instruments t r full hr).bind fun _ hr => ?_
    exact .pure (Bool.and_eq_true_iff.2 ⟨hd, hr⟩)

theorem SwitchCase.isScoped_instrument (t : Tracer) (c : SwitchCase) (full : ScopeStack)
    (h : c.isPlain = true) (hvars : full.HoldsVars (Stmt.varNamesOf c.stmts))
    (hlexical : full.Holds (Stmt.lexicalNamesOf c.stmts)) :
    Keeps full (c.instrument t) fun c => c.isScoped full.names = true := by
  cases c with
  | mk p e ss =>
    obtain ⟨he, hss⟩ := Bool.and_eq_true_iff.1 h
    refine (Expr.isScoped?_instrument? t e full he).bind fun _ he => ?_
    refine (Stmt.areScoped_instruments t ss full hss hvars hlexical).bind fun _ hss => ?_
    exact .pure (Bool.and_eq_true_iff.2 ⟨he, hss⟩)

theorem SwitchCase.areScoped_instruments (t : Tracer) (cs : List SwitchCase) (full : ScopeStack)
    (h : SwitchCase.arePlain cs = true) (hvars : full.HoldsVars (SwitchCase.varNamesOf cs))
    (hlexical : full.Holds (SwitchCase.lexicalNamesOf cs)) :
    Keeps full (SwitchCase.instruments t cs) fun cs => SwitchCase.areScoped full.names cs = true := by
  match cs with
  | [] => exact .pure rfl
  | .mk p e ss :: r =>
    obtain ⟨hc, hr⟩ := Bool.and_eq_true_iff.1 h
    have hc := SwitchCase.isScoped_instrument t (.mk p e ss) full hc
      (hvars.mono (List.subset_append_left _ _)) (hlexical.mono (List.subset_append_left _ _))
    have hr := SwitchCase.areScoped_instruments t r full hr
      (hvars.mono (List.subset_append_right _ _)) (hlexical.mono (List.subset_append_right _ _))
    refine hc.bind fun _ hc => hr.bind fun _ hr => ?_
    exact .pure (Bool.and_eq_true_iff.2 ⟨hc, hr⟩)

theorem Catch.isScoped_instrument (t : Tracer) (c : Catch) (full : ScopeStack) (h : c.isPlain = true)
    (hvars : full.HoldsVars (Catch.varNames? (some c))) :
    Keeps full (c.instrument t) fun c => c.isScoped full.names = true := by
  cases c with
  | mk p q b =>
    obtain ⟨hq, hb⟩ := Bool.and_eq_true_iff.1 h
    have hq := Pat.isScoped?_instrument? t q (⟨.block, q.elim [] Pat.boundNames⟩ :: full) hq
    have hb := Block.isScoped_instrument t b (⟨.block, q.elim [] Pat.boundNames⟩ :: full) hb hvars
    refine Leads.inScope ⟨.block, q.elim [] Pat.boundNames⟩
      (fun hs => (hs.push .block _).declareAll (List.Subset.refl _)) ?_
    refine hq.traced.bind fun _ ⟨hq, s, hs⟩ => hb.bind fun _ hb => .pure ?_
    rw [← hs] at hq ⊢
    rw [Catch.isScoped, Pat.boundNames?_instrument?]
    exact Bool.and_eq_true_iff.2 ⟨hq, hb⟩

theorem Catch.isScoped?_instrument? (t : Tracer) (c : Option Catch) (full : ScopeStack)
    (h : Catch.isPlain? c = true) (hvars : full.HoldsVars (Catch.varNames? c)) :
    Keeps full (Catch.instrument? t c) fun c => Catch.isScoped? full.names c = true := by
  cases c with
  | none => exact .pure rfl
  | some c => exact (Catch.isScoped_instrument t c full h hvars).bind fun _ hc => .pure hc

theorem LoopHead.isScoped_instrument (t : Tracer) (head : LoopHead) (full : ScopeStack)
    (h : head.isPlain = true) :
    Keeps full (head.instrument t) fun head => head.isScoped full.names = true := by
  cases head with
  | none => exact .pure rfl
  | varDecl d => exact (VarDecl.isScoped_instrument t d full h).bind fun _ hd => .pure hd
  | pat q => exact (Pat.isScoped_instrument t q full h).bind fun _ hq => .pure hq
  | expr e => exact (Expr.isScoped_instrument t e full h).bind fun _ he => .pure he

end

/-! ### Whole programs -/

/-- Every probe of a plain program with probes reads only names that a parameter, a declaration, the head of
a loop or a clause binds where the probe stands. -/
theorem Program.isScoped_of_isPlain (t : Tracer) (p : Program) (h : p.isPlain = true) :
    (p.instrument t).1.isScoped = true := by
  obtain ⟨s, hscopes, hprogram⟩ := exists_instrument_eq t p
  rw [hprogram]
  have hlexical := Stmt.lexicalNamesOf_instruments t p.body s
  have hvars := Stmt.varNamesOf_instruments t p.body s
  -- The outermost scope is filled with what the program declares when its header is there.
  let ss := Stmt.insertAfterDirectives [Probe.fallback] (result (Stmt.instruments t p.body) s)
  let names := Stmt.lexicalNamesOf ss ++ Stmt.varNamesOf ss
  have hlexicalNames : Stmt.lexicalNamesOf p.body ⊆ names := by
    rw [← hlexical]
    exact List.subset_append_of_subset_left _ (subset_flatMap_insertAfterDirectives ..)
  have hvarNames : Stmt.varNamesOf p.body ⊆ names := by
    rw [← hvars]
    refine List.subset_append_of_subset_right _ ?_
    rw [Stmt.varNamesOf_eq_flatMap, Stmt.varNamesOf_eq_flatMap]
    exact subset_flatMap_insertAfterDirectives ..
  have hfull : s.scopes.Below [⟨.function, names⟩] :=
    hscopes ▸ .cons ⟨rfl, List.nil_subset _⟩ .nil
  have hss := (Stmt.areScoped_instruments t p.body [⟨.function, names⟩] h hvarNames hlexicalNames
    s hfull).2
  have hnames : ScopeStack.names [⟨.function, names⟩] = names := List.append_nil names
  rw [hnames] at hss
  exact areScoped_insertAfterDirectives rfl hss

/-- A decorated method with a loop and a clause of `catch`, after a declaration. -/
theorem Program.isScoped_of_isPlain_nested :
    let at_ (n : Nat) : Place := some ⟨n, n + 1⟩
    let name (n : Nat) (text : String) : Ident := ⟨at_ n, text⟩
    let use (n : Nat) (text : String) : Stmt := .expr (at_ n) (.ident (name n text))
    let declare (n : Nat) (kind : VarKind) (text : String) : VarDecl :=
      .mk (at_ n) kind false [.mk (at_ n) (.ident (name n text)) none]
    let loop : Stmt := .forOf (at_ 4) false (.varDecl (declare 5 .let "i")) (.ident (name 6 "p"))
      (.block (.mk (at_ 7) [use 8 "i", .varDecl (declare 9 .var "v")]))
    let attempt : Stmt := .tryStmt (at_ 10) (.mk (at_ 11) [])
      (some (.mk (at_ 12) (some (.ident (name 12 "e"))) (.mk (at_ 13) [use 14 "e"]))) none
    let m : Function := .mk (at_ 2) false false [.ident (name 1 "d")]
      [.mk (at_ 3) [] false (.ident (name 3 "p"))] (some (.mk (at_ 3) [loop, attempt, use 15 "p"]))
    let c : Class := .mk (at_ 1) [] [.method (at_ 2) (.name (name 2 "m")) .method false false m] none
    let p : Program := ⟨true, none, [.varDecl (declare 0 .const "k"), .classDecl (name 1 "C") c]⟩
    let t : Tracer := ⟨"f.js", fun n => ⟨1, n⟩⟩
    p.isPlain = true ∧
      (p.instrument t).2.map ProbeSite.names = [["k"], ["p"], ["k", "p", "i"], ["k", "p", "v", "i"],
        ["k", "p", "v", "e"], ["k", "p", "v"]] ∧
      (p.instrument t).1.isScoped = true := by
  intro at_ name use declare loop attempt m c p t
  have h : p.isPlain = true := by decide +kernel
  exact ⟨h, by decide +kernel, Program.isScoped_of_isPlain t p h⟩

/-- A variable of a static block leaks: the probe after a class reads it, but it is not bound there. -/
theorem Program.not_isScoped_of_staticBlock :
    let at_ (n : Nat) : Place := some ⟨n, n + 1⟩
    let name (n : Nat) (text : String) : Ident := ⟨at_ n, text⟩
    let x : VarDecl := .mk (at_ 2) .var false [.mk (at_ 2) (.ident (name 2 "x")) none]
    let c : Class := .mk (at_ 0) [] [.staticBlock (at_ 1) (.mk (at_ 1) [.varDecl x])] none
    let p : Program := ⟨false, none, [.classDecl (name 0 "C") c, .expr (at_ 3) (.ident (name 3 "y"))]⟩
    let t : Tracer := ⟨"f.js", fun n => ⟨1, n⟩⟩
    (p.instrument t).2.map ProbeSite.names = [["x"], ["x"]] ∧ (p.instrument t).1.isScoped = false := by
  intro at_ name x c p t
  exact ⟨by decide +kernel, by decide +kernel⟩

/-- Shows that a decorator with a function in it may read the parameters of what it decorates. -/
example :
    let at_ (n : Nat) : Place := some ⟨n, n + 1⟩
    let name (n : Nat) (text : String) : Ident := ⟨at_ n, text⟩
    let d : Expr := .func none (.mk (at_ 0) false false [] []
      (some (.mk (at_ 0) [.expr (at_ 1) (.ident (name 1 "y"))])))
    let m : Function := .mk (at_ 2) false false [d] [.mk (at_ 3) [] false (.ident (name 3 "p"))]
      (some (.mk (at_ 4) []))
    let c : Class := .mk (at_ 0) [] [.method (at_ 2) (.name (name 2 "m")) .method false false m] none
    let p : Program := ⟨false, none, [.classDecl (name 0 "C") c]⟩
    (p.instrument ⟨"f.js", fun n => ⟨1, n⟩⟩).1.isScoped = false := by
  decide +kernel
/-- Shows that the key of a setter with a function in it may read the parameter. -/
example :
    let at_ (n : Nat) : Place := some ⟨n, n + 1⟩
    let name (n : Nat) (text : String) : Ident := ⟨at_ n, text⟩
    let k : Key := .computed (at_ 0) (.func none (.mk (at_ 0) false false [] []
      (some (.mk (at_ 0) [.expr (at_ 1) (.ident (name 1 "y"))]))))
    let e : Expr := .object (at_ 0) [.setter (at_ 0) k (.ident (name 2 "v")) (.mk (at_ 3) [])]
    let p : Program := ⟨false, none, [.expr (at_ 0) (.paren (at_ 0) e)]⟩
    (p.instrument ⟨"f.js", fun n => ⟨1, n⟩⟩).1.isScoped = false := by
  decide +kernel

end StepTrace.Script
