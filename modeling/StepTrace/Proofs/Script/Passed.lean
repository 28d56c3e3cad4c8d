import StepTrace.Proofs.Script.Timely

/-!
Probes read what has been passed. The scopes of a traversal hold a name only after the statement that declares
it, so each name that a probe reads is bound around it by something that has been passed there. The scopes
hold names and not bindings, though: the name may resolve to another binding, further in and still to come.
-/
namespace StepTrace.Script

open Trace ScopeStack

/-! ### The parts of a program -/

mutual

theorem Expr.timely_instrument (t : Tracer) (e : Expr) (full : ScopeStack) (h : e.isPlain = true) :
    Keeps full (e.instrument t) fun e' => Timely e.isFlat full.names fun env => e'.readings env := by
  cases e with
  | template p chunks parts =>
    exact (Expr.timely_instruments t parts full h).bind fun _ hparts => .pure hparts
  | tagged p tag chunks parts =>
    obtain ⟨htag, hparts⟩ := Bool.and_eq_true_iff.1 h
    refine (Expr.timely_instrument t tag full htag).bind fun _ htag => ?_
    refine (Expr.timely_instruments t parts full hparts).bind fun _ hparts => ?_
    exact .pure (htag.append hparts)
  | array p items | sequence p items =>
    exact (Expr.timely_instruments t items full h).bind fun _ hitems => .pure hitems
  | object p members =>
    exact (Property.timely_instruments t members full h).bind fun _ hmembers => .pure hmembers
  | func n f => exact (Function.timely_instrument t f full h).bind fun _ hf => .pure (hf.under _)
  | classExpr n c => exact (Class.timely_instrument t c full h).bind fun _ hc => .pure (hc _)
  | arrow p a ps b =>
    obtain ⟨hps, hb⟩ := Bool.and_eq_true_iff.1 h
    have hps := Pat.timely_instruments t ps (⟨.function, Pat.boundNamesOf ps⟩ :: full) hps
    have hb := ArrowBody.timely_instrument t b p (Pat.boundNamesOf ps) full hb
    refine Leads.inFunction (b.varNames ++ Pat.boundNamesOf ps) ?_
    refine (hps.and_eq (Pat.boundNamesOf_instruments t ps)).bind fun _ ⟨hps, hnames⟩ => ?_
    refine (hb.raise (.widen full (List.subset_append_right _ _))).bind fun _ hb => .pure ?_
    have hps := hps.bound (Pat.boundNamesOf ps)
    rw [← hnames] at hps hb
    exact hps.append hb
  | unary p op e | update p op pre e | member p l e n | paren p e | await p e | spread p e
  | ascribed p how e =>
    exact (Expr.timely_instrument t e full h).bind fun _ he => .pure he
  | binary p op l r | index p op l r =>
    obtain ⟨hl, hr⟩ := Bool.and_eq_true_iff.1 h
    refine (Expr.timely_instrument t l full hl).bind fun _ hl => ?_
    refine (Expr.timely_instrument t r full hr).bind fun _ hr => ?_
    exact .pure (hl.append hr)
  | assign p op q e =>
    obtain ⟨hq, he⟩ := Bool.and_eq_true_iff.1 h
    refine (Pat.timely_instrument t q full hq).bind fun _ hq => ?_
    refine (Expr.timely_instrument t e full he).bind fun _ he => ?_
    exact .pure (hq.append he)
  | cond p a b c =>
    obtain ⟨hab, hc⟩ := Bool.and_eq_true_iff.1 h
    obtain ⟨ha, hb⟩ := Bool.and_eq_true_iff.1 hab
    refine (Expr.timely_instrument t a full ha).bind fun _ ha => ?_
    refine (Expr.timely_instrument t b full hb).bind fun _ hb => ?_
    refine (Expr.timely_instrument t c full hc).bind fun _ hc => ?_
    exact .pure ((ha.append hb).append hc)
  | call p l e args =>
    obtain ⟨hpe, hargs⟩ := Bool.and_eq_true_iff.1 h
    obtain ⟨hp, he⟩ := Bool.and_eq_true_iff.1 hpe
    have he := (Expr.timely_instrument t e full he).and_eq (isProbeCall_instrument t p e)
    refine he.bind fun _ ⟨he, hcallee⟩ => ?_
    refine (Expr.timely_instruments t args full hargs).bind fun _ hargs => ?_
    rw [← hcallee] at hp
    exact .pure (timely_call _ hp he hargs)
  | construct p e hasArgs args =>
    obtain ⟨he, hargs⟩ := Bool.and_eq_true_iff.1 h
    refine (Expr.timely_instrument t e full he).bind fun _ he => ?_
    refine (Expr.timely_instruments t args full hargs).bind fun _ hargs => ?_
    exact .pure (he.append hargs)
  | yield p d e => exact (Expr.timely_instrument? t e full h).bind fun _ he => .pure he
  | element p n c as_ cs =>
    obtain ⟨has, hcs⟩ := Bool.and_eq_true_iff.1 h
    refine (JsxPart.timely_instruments t as_ full has).bind fun _ has => ?_
    refine (JsxPart.timely_instruments t cs full hcs).bind fun _ hcs => ?_
    exact .pure (has.append hcs)
  | this | superRef | importRef | ident | literal | metaProperty | elision => exact .pure .nil

theorem Expr.timely_instruments (t : Tracer) (es : List Expr) (full : ScopeStack)
    (h : Expr.arePlain es = true) :
    Keeps full (Expr.instruments t es) fun es' =>
      Timely (Expr.areFlat es) full.names fun env => Expr.readingsOf env es' := by
  cases es with
  | nil => exact .pure .nil
  | cons e r =>
    obtain ⟨he, hr⟩ := Bool.and_eq_true_iff.1 h
    refine (Expr.timely_instrument t e full he).bind fun _ he => ?_
    refine (Expr.timely_instruments t r full hr).bind fun _ hr => ?_
    exact .pure (he.append hr)

theorem Expr.timely_instrument? (t : Tracer) (e : Option Expr) (full : ScopeStack)
    (h : Expr.isPlain? e = true) :
    Keeps full (Expr.instrument? t e) fun e' =>
      Timely (Expr.isFlat? e) full.names fun env => Expr.readings? env e' := by
  cases e with
  | none => exact .pure .nil
  | some e => exact (Expr.timely_instrument t e full h).bind fun _ he => .pure he

theorem JsxPart.timely_instrument (t : Tracer) (p : JsxPart) (full : ScopeStack)
    (h : p.isPlain = true) :
    Keeps full (p.instrument t) fun p' => Timely p.isFlat full.names fun env => p'.readings env := by
  match p with
  | .attribute n none | .text v => exact .pure .nil
  | .attribute n (some v) => exact (JsxPart.timely_instrument t v full h).bind fun _ hv => .pure hv
  | .spread e | .child e => exact (Expr.timely_instrument t e full h).bind fun _ he => .pure he
  | .container e => exact (Expr.timely_instrument? t e full h).bind fun _ he => .pure he

theorem JsxPart.timely_instruments (t : Tracer) (ps : List JsxPart) (full : ScopeStack)
    (h : JsxPart.arePlain ps = true) :
    Keeps full (JsxPart.instruments t ps) fun ps' =>
      Timely (JsxPart.areFlat ps) full.names fun env => JsxPart.readingsOf env ps' := by
  cases ps with
  | nil => exact .pure .nil
  | cons p r =>
    obtain ⟨hp, hr⟩ := Bool.and_eq_true_iff.1 h
    refine (JsxPart.timely_instrument t p full hp).bind fun _ hp => ?_
    refine (JsxPart.timely_instruments t r full hr).bind fun _ hr => ?_
    exact .pure (hp.append hr)

theorem Property.timely_instrument (t : Tracer) (p : Property) (full : ScopeStack)
    (h : p.isPlain = true) :
    Keeps full (p.instrument t) fun p' => Timely p.isFlat full.names fun env => p'.readings env := by
  cases p with
  | shorthand n e => exact (Expr.timely_instrument? t e full h).bind fun _ he => .pure he
  | keyValue k e =>
    obtain ⟨hk, he⟩ := Bool.and_eq_true_iff.1 h
    refine (Key.timely_instrument t k full hk).bind fun _ hk => ?_
    refine (Expr.timely_instrument t e full he).bind fun _ he => ?_
    exact .pure (hk.append he)
  | method k f =>
    obtain ⟨hk, hf⟩ := Bool.and_eq_true_iff.1 h
    refine (Key.timely_instrument t k full hk).bind fun _ hk => ?_
    refine (Function.timely_instrument t f full hf).bind fun _ hf => ?_
    exact .pure (hk.append hf).weaken
  | getter p k b =>
    obtain ⟨hk, hb⟩ := Bool.and_eq_true_iff.1 h
    have hk := Key.timely_instrument t k (⟨.function, []⟩ :: full) hk
    have hb := Block.timely_instrument t b (⟨.function, b.varNames⟩ :: full) hb (List.Subset.refl _)
    refine Leads.inFunction b.varNames (hk.bind fun _ hk => ?_)
    have hb := (hb.and_eq (Block.varNames_instrument t b)).raise (.widen full (List.nil_subset _))
    refine hb.bind fun _ ⟨hb, hvars⟩ => .pure ?_
    have hb := hb.bound b.varNames
    rw [← hvars] at hb
    exact (hk.append hb).weaken
  | setter p k q b =>
    obtain ⟨hkq, hb⟩ := Bool.and_eq_true_iff.1 h
    obtain ⟨hk, hq⟩ := Bool.and_eq_true_iff.1 hkq
    obtain ⟨hflat, hk⟩ := Bool.and_eq_true_iff.1 hk
    have hk := Key.timely_instrument t k (⟨.function, q.boundNames⟩ :: full) hk
    have hq := Pat.timely_instrument t q (⟨.function, q.boundNames⟩ :: full) hq
    have hb := Block.timely_instrument t b (⟨.function, b.varNames ++ q.boundNames⟩ :: full) hb
      (List.subset_append_left _ _)
    refine Leads.inFunction (b.varNames ++ q.boundNames) (hk.bind fun _ hk => ?_)
    refine (hq.and_eq (Pat.boundNames_instrument t q)).bind fun _ ⟨hq, hnames⟩ => ?_
    have hb := (hb.and_eq (Block.varNames_instrument t b)).raise
      (.widen full (List.subset_append_right _ _))
    refine hb.bind fun _ ⟨hb, hvars⟩ => .pure ?_
    have hq := hq.bound q.boundNames
    have hb := (timely_body hvars hb).bound q.boundNames
    rw [← hnames] at hq hb
    exact (((hk.outside hflat).append hq).append hb).weaken
  | spread p e => exact (Expr.timely_instrument t e full h).bind fun _ he => .pure he

theorem Property.timely_instruments (t : Tracer) (ps : List Property) (full : ScopeStack)
    (h : Property.arePlain ps = true) :
    Keeps full (Property.instruments t ps) fun ps' =>
      Timely (Property.areFlat ps) full.names fun env => Property.readingsOf env ps' := by
  cases ps with
  | nil => exact .pure .nil
  | cons p r =>
    obtain ⟨hp, hr⟩ := Bool.and_eq_true_iff.1 h
    refine (Property.timely_instrument t p full hp).bind fun _ hp => ?_
    refine (Property.timely_instruments t r full hr).bind fun _ hr => ?_
    exact .pure (hp.append hr)

theorem Key.timely_instrument (t : Tracer) (k : Key) (full : ScopeStack) (h : k.isPlain = true) :
    Keeps full (k.instrument t) fun k' => Timely k.isFlat full.names fun env => k'.readings env := by
  cases k with
  | computed p e => exact (Expr.timely_instrument t e full h).bind fun _ he => .pure he
  | name | literal => exact .pure .nil

theorem Pat.timely_instrument (t : Tracer) (q : Pat) (full : ScopeStack) (h : q.isPlain = true) :
    Keeps full (q.instrument t) fun q' => Timely q.isFlat full.names fun env => q'.readings env := by
  cases q with
  | ident | elision => exact .pure .nil
  | array p items => exact (Pat.timely_instruments t items full h).bind fun _ hitems => .pure hitems
  | object p members =>
    exact (PatProperty.timely_instruments t members full h).bind fun _ hmembers => .pure hmembers
  | rest p q => exact (Pat.timely_instrument t q full h).bind fun _ hq => .pure hq
  | withDefault p q e =>
    obtain ⟨hq, he⟩ := Bool.and_eq_true_iff.1 h
    refine (Pat.timely_instrument t q full hq).bind fun _ hq => ?_
    refine (Expr.timely_instrument t e full he).bind fun _ he => ?_
    exact .pure (hq.append he)
  | expr e => exact (Expr.timely_instrument t e full h).bind fun _ he => .pure he

theorem Pat.timely_instruments (t : Tracer) (qs : List Pat) (full : ScopeStack)
    (h : Pat.arePlain qs = true) :
    Keeps full (Pat.instruments t qs) fun qs' =>
      Timely (Pat.areFlat qs) full.names fun env => Pat.readingsOf env qs' := by
  cases qs with
  | nil => exact .pure .nil
  | cons q r =>
    obtain ⟨hq, hr⟩ := Bool.and_eq_true_iff.1 h
    refine (Pat.timely_instrument t q full hq).bind fun _ hq => ?_
    refine (Pat.timely_instruments t r full hr).bind fun _ hr => ?_
    exact .pure (hq.append hr)

theorem Pat.timely_instrument? (t : Tracer) (q : Option Pat) (full : ScopeStack)
    (h : Pat.isPlain? q = true) :
    Keeps full (Pat.instrument? t q) fun q' =>
      Timely false full.names fun env => Pat.readings? env q' := by
  cases q with
  | none => exact .pure .nil
  | some q => exact (Pat.timely_instrument t q full h).bind fun _ hq => .pure hq.weaken

theorem PatProperty.timely_instrument (t : Tracer) (p : PatProperty) (full : ScopeStack)
    (h : p.isPlain = true) :
    Keeps full (p.instrument t) fun p' => Timely p.isFlat full.names fun env => p'.readings env := by
  cases p with
  | keyValue k q =>
    obtain ⟨hk, hq⟩ := Bool.and_eq_true_iff.1 h
    refine (Key.timely_instrument t k full hk).bind fun _ hk => ?_
    refine (Pat.timely_instrument t q full hq).bind fun _ hq => ?_
    exact .pure (hk.append hq)
  | shorthand p n e => exact (Expr.timely_instrument? t e full h).bind fun _ he => .pure he
  | rest p q => exact (Pat.timely_instrument t q full h).bind fun _ hq => .pure hq

theorem PatProperty.timely_instruments (t : Tracer) (ps : List PatProperty) (full : ScopeStack)
    (h : PatProperty.arePlain ps = true) :
    Keeps full (PatProperty.instruments t ps) fun ps' =>
      Timely (PatProperty.areFlat ps) full.names fun env => PatProperty.readingsOf env ps' := by
  cases ps with
  | nil => exact .pure .nil
  | cons p r =>
    obtain ⟨hp, hr⟩ := Bool.and_eq_true_iff.1 h
    refine (PatProperty.timely_instrument t p full hp).bind fun _ hp => ?_
    refine (PatProperty.timely_instruments t r full hr).bind fun _ hr => ?_
    exact .pure (hp.append hr)

theorem Function.timely_instrument (t : Tracer) (f : Function) (full : ScopeStack)
    (h : f.isPlain = true) :
    Keeps full (f.instrument t) fun f' => Timely false full.names fun env => f'.readings env := by
  cases f with
  | mk p a g ds ps b =>
    obtain ⟨hdps, hb⟩ := Bool.and_eq_true_iff.1 h
    obtain ⟨hds, hps⟩ := Bool.and_eq_true_iff.1 hdps
    obtain ⟨hflat, hds⟩ := Bool.and_eq_true_iff.1 hds
    have hds := Expr.timely_instruments t ds (⟨.function, Param.boundNamesOf ps⟩ :: full) hds
    have hps := Param.timely_instruments t ps (Param.boundNamesOf ps) full hps
    have hb := Block.timely_instrumentBody? t p (Param.boundNamesOf ps) b full hb
    refine Leads.inFunction (Block.varNames? b ++ Param.boundNamesOf ps) (hds.bind fun _ hds => ?_)
    refine (hps.and_eq (Param.boundNamesOf_instruments t ps)).bind fun _ ⟨hps, hnames⟩ => ?_
    refine (hb.raise (.widen full (List.subset_append_right _ _))).bind fun _ hb => .pure ?_
    have hb := hb.bound (Param.boundNamesOf ps)
    rw [← hnames] at hps hb
    exact ((hds.outside hflat).append hps).append hb

/-- The body of a function; what it declares by `var` is in the scope of its parameters. -/
theorem Block.timely_instrumentBody? (t : Tracer) (p : Place) (names : List String)
    (b : Option Block) (full : ScopeStack) (h : Block.isPlain? b = true) :
    Keeps (⟨.function, Block.varNames? b ++ names⟩ :: full) (Block.instrumentBody? t p names b)
      fun b' => Timely false (names ++ full.names) fun env => Block.bodyReadings? env b' := by
  cases b with
  | none => exact .pure .nil
  | some b =>
    have hb := Block.timely_instrument t b (⟨.function, b.varNames ++ names⟩ :: full) h
      (List.subset_append_left _ _)
    have hsub := subset_names_append .function b.varNames names full
    have hb := (timely_entering t p hsub hb).and_eq (Block.varNames_entering t p names b)
    exact hb.bind fun _ ⟨hb, hvars⟩ => .pure (timely_body hvars hb)

theorem Param.timely_instrument (t : Tracer) (p : Param) (names : List String) (full : ScopeStack)
    (h : p.isPlain names = true) :
    Keeps (⟨.function, names⟩ :: full) (p.instrument t) fun p' =>
      Timely false full.names fun env => p'.readings env (passed names ++ env) := by
  cases p with
  | mk p ds i q =>
    obtain ⟨hds, hq⟩ := Bool.and_eq_true_iff.1 h
    obtain ⟨hflat, hds⟩ := Bool.and_eq_true_iff.1 hds
    refine (Expr.timely_instruments t ds (⟨.function, names⟩ :: full) hds).bind fun _ hds => ?_
    refine (Pat.timely_instrument t q (⟨.function, names⟩ :: full) hq).bind fun _ hq => ?_
    exact .pure ((hds.outside hflat).append (hq.bound names)).weaken

theorem Param.timely_instruments (t : Tracer) (ps : List Param) (names : List String)
    (full : ScopeStack) (h : Param.arePlain names ps = true) :
    Keeps (⟨.function, names⟩ :: full) (Param.instruments t ps) fun ps' =>
      Timely false full.names fun env => Param.readingsOf env (passed names ++ env) ps' := by
  cases ps with
  | nil => exact .pure .nil
  | cons p r =>
    obtain ⟨hp, hr⟩ := Bool.and_eq_true_iff.1 h
    refine (Param.timely_instrument t p names full hp).bind fun _ hp => ?_
    refine (Param.timely_instruments t r names full hr).bind fun _ hr => ?_
    exact .pure (hp.append hr)

theorem ArrowBody.timely_instrument (t : Tracer) (b : ArrowBody) (p : Place) (names : List String)
    (full : ScopeStack) (h : b.isPlain = true) :
    Keeps (⟨.function, b.varNames ++ names⟩ :: full) (b.instrument t p names) fun b' =>
      Timely b.isFlat full.names fun env => b'.readings (passed names ++ env) := by
  cases b with
  | block b =>
    have hb := Block.timely_instrument t b (⟨.function, b.varNames ++ names⟩ :: full) h
      (List.subset_append_left _ _)
    have hsub := subset_names_append .function b.varNames names full
    have hb := (timely_entering t p hsub hb).and_eq (Block.varNames_entering t p names b)
    exact hb.bind fun _ ⟨hb, hvars⟩ => .pure ((timely_body hvars hb).bound names)
  | expr e =>
    have he := Expr.timely_instrument t e (⟨.function, names⟩ :: full) h
    have he := he.imp fun _ he => he.bound names
    exact (timely_returning t p he).bind fun _ he => .pure he

theorem Block.timely_instrument (t : Tracer) (b : Block) (full : ScopeStack) (h : b.isPlain = true)
    (hvars : full.HoldsVars b.varNames) :
    Keeps full (b.instrument t) fun b' => Timely false full.names fun env => b'.readings env := by
  cases b with
  | mk p ss =>
    have hss := Stmt.timely_instruments t ss .block [] full h hvars
    refine .inScope ⟨.block, [] ++ Stmt.lexicalNamesOf ss⟩ (·.push .block []) ?_
    exact hss.bind fun _ hss => .pure hss.timely

theorem Block.timely_instrument? (t : Tracer) (b : Option Block) (full : ScopeStack)
    (h : Block.isPlain? b = true) (hvars : full.HoldsVars (Block.varNames? b)) :
    Keeps full (Block.instrument? t b) fun b' =>
      Timely false full.names fun env => Block.readings? env b' := by
  cases b with
  | none => exact .pure .nil
  | some b => exact (Block.timely_instrument t b full h hvars).bind fun _ hb => .pure hb

theorem Class.timely_instrument (t : Tracer) (c : Class) (full : ScopeStack)
    (h : c.isPlain = true) :
    Keeps full (c.instrument t) fun c' =>
      ∀ inner, Timely false full.names fun env => c'.readings env (inner ++ env) := by
  cases c with
  | mk p ds members parent =>
    obtain ⟨hdm, hparent⟩ := Bool.and_eq_true_iff.1 h
    obtain ⟨hds, hmembers⟩ := Bool.and_eq_true_iff.1 hdm
    refine (Expr.timely_instruments t ds full hds).bind fun _ hds => ?_
    refine (ClassMember.timely_instruments t members full hmembers).bind fun _ hmembers => ?_
    refine (Expr.timely_instrument? t parent full hparent).bind fun _ hparent => .pure fun inner => ?_
    exact ((hds.append (hmembers.under inner)).append (hparent.under inner)).weaken

theorem ClassMember.timely_instrument (t : Tracer) (m : ClassMember) (full : ScopeStack)
    (h : m.isPlain = true) :
    Keeps full (m.instrument t) fun m' => Timely false full.names fun env => m'.readings env := by
  cases m with
  | ctor p k ps b =>
    obtain ⟨hps, hb⟩ := Bool.and_eq_true_iff.1 h
    have hps := Param.timely_instruments t ps (Param.boundNamesOf ps) full hps
    have hb := Block.timely_instrumentBody? t p (Param.boundNamesOf ps) b full hb
    refine Leads.inFunction (Block.varNames? b ++ Param.boundNamesOf ps) ?_
    refine (hps.and_eq (Param.boundNamesOf_instruments t ps)).bind fun _ ⟨hps, hnames⟩ => ?_
    refine (hb.raise (.widen full (List.subset_append_right _ _))).bind fun _ hb => .pure ?_
    have hb := hb.bound (Param.boundNamesOf ps)
    rw [← hnames] at hps hb
    exact hps.append hb
  | method p k kind st e f =>
    obtain ⟨hk, hf⟩ := Bool.and_eq_true_iff.1 h
    refine (Key.timely_instrument t k full hk).bind fun _ hk => ?_
    refine (Function.timely_instrument t f full hf).bind fun _ hf => ?_
    exact .pure (hk.append hf).weaken
  | property p k st e a v ds =>
    obtain ⟨hkv, hds⟩ := Bool.and_eq_true_iff.1 h
    obtain ⟨hk, hv⟩ := Bool.and_eq_true_iff.1 hkv
    refine (Key.timely_instrument t k full hk).bind fun _ hk => ?_
    refine (Expr.timely_instrument? t v full hv).bind fun _ hv => ?_
    refine (Expr.timely_instruments t ds full hds).bind fun _ hds => ?_
    exact .pure ((hk.append hv).append hds).weaken
  | staticBlock p b =>
    obtain ⟨hempty, hb⟩ := Bool.and_eq_true_iff.1 h
    have hnone : b.varNames = [] := List.isEmpty_iff.1 hempty
    have hb := Block.timely_instrument t b full hb (hnone.symm ▸ holdsVars_nil full)
    exact hb.bind fun _ hb => .pure (hb.under _)
  | empty p => exact .pure .nil

theorem ClassMember.timely_instruments (t : Tracer) (ms : List ClassMember) (full : ScopeStack)
    (h : ClassMember.arePlain ms = true) :
    Keeps full (ClassMember.instruments t ms) fun ms' =>
      Timely false full.names fun env => ClassMember.readingsOf env ms' := by
  cases ms with
  | nil => exact .pure .nil
  | cons m r =>
    obtain ⟨hm, hr⟩ := Bool.and_eq_true_iff.1 h
    refine (ClassMember.timely_instrument t m full hm).bind fun _ hm => ?_
    refine (ClassMember.timely_instruments t r full hr).bind fun _ hr => ?_
    exact .pure (hm.append hr)

theorem Stmt.timely_instrument (t : Tracer) (st : Stmt) (full : ScopeStack) (h : st.isPlain = true)
    (hvars : full.HoldsVars st.varNames) :
    Keeps full (st.instrument t) fun st' => Timely false full.names fun env => st'.readings env := by
  cases st with
  | block b => exact (Block.timely_instrument t b full h hvars).bind fun _ hb => .pure hb
  | withObject p e st | whileLoop p e st | doWhileLoop p e st =>
    obtain ⟨he, hst⟩ := Bool.and_eq_true_iff.1 h
    refine (Expr.timely_instrument t e full he).bind fun _ he => ?_
    refine (Stmt.timely_instrument t st full hst hvars).bind fun _ hst => ?_
    exact .pure (he.append hst).weaken
  | returnStmt p e => exact (Expr.timely_instrument? t e full h).bind fun _ he => .pure he.weaken
  | labeled p l st | exportDecl p st =>
    exact (Stmt.timely_instrument t st full h hvars).bind fun _ hst => .pure hst
  | ifElse p e yes no =>
    obtain ⟨hey, hno⟩ := Bool.and_eq_true_iff.1 h
    obtain ⟨he, hyes⟩ := Bool.and_eq_true_iff.1 hey
    have hyes := Stmt.timely_instrument t yes full hyes (hvars.mono (List.subset_append_left _ _))
    have hno := Stmt.timely_instrument? t no full hno (hvars.mono (List.subset_append_right _ _))
    refine (Expr.timely_instrument t e full he).bind fun _ he => ?_
    refine hyes.bind fun _ hyes => hno.bind fun _ hno => ?_
    exact .pure ((he.append hyes).append hno).weaken
  | switchOn p e cases =>
    obtain ⟨he, hcases⟩ := Bool.and_eq_true_iff.1 h
    have hcases := SwitchCase.timely_instruments t cases .block [] full hcases hvars
    have hcases := Leads.inScope ⟨.block, [] ++ SwitchCase.lexicalNamesOf cases⟩ (·.push .block []) hcases
    refine (Expr.timely_instrument t e full he).bind fun _ he => ?_
    exact hcases.bind fun _ hcases => .pure (he.append hcases.timely).weaken
  | throwStmt p e | expr p e | exportDefault p e =>
    exact (Expr.timely_instrument t e full h).bind fun _ he => .pure he.weaken
  | tryStmt p b c f =>
    obtain ⟨hbc, hf⟩ := Bool.and_eq_true_iff.1 h
    obtain ⟨hb, hc⟩ := Bool.and_eq_true_iff.1 hbc
    have hboth := hvars.mono (List.subset_append_left _ _)
    have hb := Block.timely_instrument t b full hb (hboth.mono (List.subset_append_left _ _))
    have hc := Catch.timely_instrument? t c full hc (hboth.mono (List.subset_append_right _ _))
    have hf := Block.timely_instrument? t f full hf (hvars.mono (List.subset_append_right _ _))
    refine hb.bind fun _ hb => hc.bind fun _ hc => hf.bind fun _ hf => ?_
    exact .pure ((hb.append hc).append hf)
  | forLoop p head test update st =>
    obtain ⟨hhtu, hst⟩ := Bool.and_eq_true_iff.1 h
    obtain ⟨hht, hupdate⟩ := Bool.and_eq_true_iff.1 hhtu
    obtain ⟨hhead, htest⟩ := Bool.and_eq_true_iff.1 hht
    have hdeclare := keeps_declareHead head full (hvars.mono (List.subset_append_left _ _))
    have hhead := LoopHead.timely_instrument t head (⟨.block, head.lexicalNames⟩ :: full) hhead
    have htest := Expr.timely_instrument? t test (⟨.block, head.lexicalNames⟩ :: full) htest
    have hupdate := Expr.timely_instrument? t update (⟨.block, head.lexicalNames⟩ :: full) hupdate
    have hst := Stmt.timely_instrument t st (⟨.block, head.lexicalNames⟩ :: full) hst
      (hvars.mono (List.subset_append_right _ _))
    refine Leads.inBlock (hdeclare.bind fun _ _ => ?_)
    refine (hhead.and_eq (LoopHead.lexicalNames_instrument t head)).bind fun head' ⟨hhead, hlexical⟩ => ?_
    refine htest.bind fun _ htest => hupdate.bind fun _ hupdate => hst.bind fun _ hst => .pure ?_
    have hnames := hlexical ▸ passed_subset head'.lexicalNames_subset
    exact (((hhead.inside hnames).append (htest.inside hnames)).append (hupdate.inside hnames)
      |>.append (hst.inside hnames)).weaken
  | forIn p head e st | forOf p a head e st =>
    obtain ⟨hhe, hst⟩ := Bool.and_eq_true_iff.1 h
    obtain ⟨hhead, he⟩ := Bool.and_eq_true_iff.1 hhe
    have hdeclare := keeps_declareHead head full (hvars.mono (List.subset_append_left _ _))
    have hhead := LoopHead.timely_instrument t head (⟨.block, head.lexicalNames⟩ :: full) hhead
    have he := Expr.timely_instrument t e (⟨.block, head.lexicalNames⟩ :: full) he
    have hst := Stmt.timely_instrument t st (⟨.block, head.lexicalNames⟩ :: full) hst
      (hvars.mono (List.subset_append_right _ _))
    refine Leads.inBlock (hdeclare.bind fun _ _ => ?_)
    refine (hhead.and_eq (LoopHead.lexicalNames_instrument t head)).bind fun head' ⟨hhead, hlexical⟩ => ?_
    refine he.bind fun _ he => hst.bind fun _ hst => .pure ?_
    have hnames := hlexical ▸ passed_subset head'.lexicalNames_subset
    exact (((hhead.inside hnames).append (he.inside hnames)).append (hst.inside hnames)).weaken
  | varDecl d => exact (VarDecl.timely_instrument t d full h).bind fun _ hd => .pure hd
  | func n f | exportDefaultFunc p n f =>
    exact (Function.timely_instrument t f full h).bind fun _ hf => .pure hf
  | classDecl n c | exportDefaultClass p n c =>
    exact (Class.timely_instrument t c full h).bind fun _ hc => .pure (hc [])
  | empty | debugger | breakTo | continueTo | importNames | exportNames | exportAll | typed =>
    exact .pure .nil

theorem Stmt.timely_instrument? (t : Tracer) (st : Option Stmt) (full : ScopeStack)
    (h : Stmt.isPlain? st = true) (hvars : full.HoldsVars (Stmt.varNames? st)) :
    Keeps full (Stmt.instrument? t st) fun st' =>
      Timely false full.names fun env => Stmt.readings? env st' := by
  cases st with
  | none => exact .pure .nil
  | some st => exact (Stmt.timely_instrument t st full h hvars).bind fun _ hst => .pure hst

/-- Statements with their probes; what they declare comes into scope one after the other. -/
theorem Stmt.timely_instruments (t : Tracer) (ss : List Stmt) (kind : ScopeKind) (names : List String)
    (full : ScopeStack) (h : Stmt.arePlain ss = true)
    (hvars : HoldsVars (Stmt.varNamesOf ss) (⟨kind, names⟩ :: full)) :
    Leads (⟨kind, names⟩ :: full) (⟨kind, names ++ Stmt.lexicalNamesOf ss⟩ :: full)
      (Stmt.instruments t ss) fun ss' =>
        TimelyList (names ++ full.names) fun earlier env => Stmt.readingsOf earlier env ss' := by
  cases ss with
  | nil => exact (Leads.pure fun _ _ _ => .nil).raise (.widen full (List.subset_append_left _ _))
  | cons st r =>
    obtain ⟨hst, hr⟩ := Bool.and_eq_true_iff.1 h
    have hstVars := hvars.mono (List.subset_append_left _ _)
    have hrVars := (hvars.mono (List.subset_append_right _ _)).widen
      (List.subset_append_left names st.lexicalNames)
    have hr := Stmt.timely_instruments t r kind (names ++ st.lexicalNames) full hr hrVars
    rw [List.append_assoc] at hr
    have hst := Stmt.timely_instrument t st (⟨kind, names⟩ :: full) hst hstVars
    have hst := (hst.and_eq (Stmt.varNames_instrument t st)).and_eq (Stmt.lexicalNames_instrument t st)
    refine hst.bind fun st' ⟨⟨hst, hvarNames⟩, hlexical⟩ => ?_
    rw [← hvarNames] at hstVars
    have hafter := keeps_after t st' (hstVars.widen (List.subset_append_left names st.lexicalNames))
      (hlexical ▸ List.subset_append_right _ _) (timely_stmtProbe t · _) ⟨rfl, fun _ _ _ => .nil⟩
    refine (hafter.raise (.widen full (List.subset_append_left _ _))).bind fun _ ⟨hnone, hnew⟩ => ?_
    refine hr.bind fun _ hr => .pure (TimelyList.cons hst ?_ hnone hnew hr)
    exact hlexical ▸ passed_subset st'.lexicalNames_subset

theorem VarDecl.timely_instrument (t : Tracer) (d : VarDecl) (full : ScopeStack)
    (h : d.isPlain = true) :
    Keeps full (d.instrument t) fun d' => Timely false full.names fun env => d'.readings env := by
  cases d with
  | mk p k d items =>
    exact (Declarator.timely_instruments t items full h).bind fun _ hitems => .pure hitems

theorem Declarator.timely_instrument (t : Tracer) (d : Declarator) (full : ScopeStack)
    (h : d.isPlain = true) :
    Keeps full (d.instrument t) fun d' => Timely false full.names fun env => d'.readings env := by
  cases d with
  | mk p q e =>
    obtain ⟨hq, he⟩ := Bool.and_eq_true_iff.1 h
    refine (Pat.timely_instrument t q full hq).bind fun _ hq => ?_
    refine (Expr.timely_instrument? t e full he).bind fun _ he => ?_
    exact .pure (hq.append he).weaken

theorem Declarator.timely_instruments (t : Tracer) (ds : List Declarator) (full : ScopeStack)
    (h : Declarator.arePlain ds = true) :
    Keeps full (Declarator.instruments t ds) fun ds' =>
      Timely false full.names fun env => Declarator.readingsOf env ds' := by
  cases ds with
  | nil => exact .pure .nil
  | cons d r =>
    obtain ⟨hd, hr⟩ := Bool.and_eq_true_iff.1 h
    refine (Declarator.timely_instrument t d full hd).bind fun _ hd => ?_
    refine (Declarator.timely_instruments t r full hr).bind fun _ hr => ?_
    exact .pure (hd.append hr)

theorem SwitchCase.timely_instrument (t : Tracer) (c : SwitchCase) (kind : ScopeKind)
    (names : List String) (full : ScopeStack) (h : c.isPlain = true)
    (hvars : HoldsVars (Stmt.varNamesOf c.stmts) (⟨kind, names⟩ :: full)) :
    Leads (⟨kind, names⟩ :: full) (⟨kind, names ++ Stmt.lexicalNamesOf c.stmts⟩ :: full)
      (c.instrument t) fun c' =>
        TimelyList (names ++ full.names) fun earlier env => c'.readings earlier env := by
  cases c with
  | mk p e ss =>
    obtain ⟨he, hss⟩ := Bool.and_eq_true_iff.1 h
    refine (Expr.timely_instrument? t e (⟨kind, names⟩ :: full) he).bind fun _ he => ?_
    refine (Stmt.timely_instruments t ss kind names full hss hvars).bind fun _ hss => ?_
    exact (Leads.pure fun earlier env henv =>
      (he _ (Or.inr (subset_between _ henv))).append (hss earlier env henv))

theorem SwitchCase.timely_instruments (t : Tracer) (cs : List SwitchCase) (kind : ScopeKind)
    (names : List String) (full : ScopeStack) (h : SwitchCase.arePlain cs = true)
    (hvars : HoldsVars (SwitchCase.varNamesOf cs) (⟨kind, names⟩ :: full)) :
    Leads (⟨kind, names⟩ :: full) (⟨kind, names ++ SwitchCase.lexicalNamesOf cs⟩ :: full)
      (SwitchCase.instruments t cs) fun cs' =>
        TimelyList (names ++ full.names) fun earlier env => SwitchCase.readingsOf earlier env cs' := by
  match cs with
  | [] => exact (Leads.pure fun _ _ _ => .nil).raise (.widen full (List.subset_append_left _ _))
  | .mk p e ss :: r =>
    obtain ⟨hc, hr⟩ := Bool.and_eq_true_iff.1 h
    have hrVars := (hvars.mono (List.subset_append_right _ _)).widen
      (List.subset_append_left names (Stmt.lexicalNamesOf ss))
    have hc := SwitchCase.timely_instrument t (.mk p e ss) kind names full hc
      (hvars.mono (List.subset_append_left _ _))
    have hr := SwitchCase.timely_instruments t r kind (names ++ Stmt.lexicalNamesOf ss) full hr hrVars
    rw [List.append_assoc] at hr
    have hc := hc.and_eq (g := fun c => Stmt.lexicalNamesOf c.stmts)
      (SwitchCase.lexicalNames_instrument t (.mk p e ss))
    refine hc.bind fun c' ⟨hc, hlexical⟩ => hr.bind fun _ hr => .pure ?_
    exact hc.consClause (hlexical ▸ passed_lexicalNamesOf_subset c'.stmts) hr

theorem Catch.timely_instrument (t : Tracer) (c : Catch) (full : ScopeStack) (h : c.isPlain = true)
    (hvars : full.HoldsVars (Catch.varNames? (some c))) :
    Keeps full (c.instrument t) fun c' => Timely false full.names fun env => c'.readings env := by
  cases c with
  | mk p q b =>
    obtain ⟨hq, hb⟩ := Bool.and_eq_true_iff.1 h
    have hq := Pat.timely_instrument? t q (⟨.block, q.elim [] Pat.boundNames⟩ :: full) hq
    have hb := Block.timely_instrument t b (⟨.block, q.elim [] Pat.boundNames⟩ :: full) hb hvars
    refine Leads.inScope ⟨.block, q.elim [] Pat.boundNames⟩
      (fun hs => (hs.push .block _).declareAll (List.Subset.refl _)) ?_
    refine (hq.and_eq (g := (·.elim [] Pat.boundNames)) (Pat.boundNames?_instrument? t q)).bind
      fun _ ⟨hq, hnames⟩ => hb.bind fun _ hb => .pure ?_
    have hq := hq.bound (q.elim [] Pat.boundNames)
    have hb := hb.bound (q.elim [] Pat.boundNames)
    rw [← hnames] at hq hb
    exact hq.append hb

theorem Catch.timely_instrument? (t : Tracer) (c : Option Catch) (full : ScopeStack)
    (h : Catch.isPlain? c = true) (hvars : full.HoldsVars (Catch.varNames? c)) :
    Keeps full (Catch.instrument? t c) fun c' =>
      Timely false full.names fun env => Catch.readings? env c' := by
  cases c with
  | none => exact .pure .nil
  | some c => exact (Catch.timely_instrument t c full h hvars).bind fun _ hc => .pure hc

theorem LoopHead.timely_instrument (t : Tracer) (head : LoopHead) (full : ScopeStack)
    (h : head.isPlain = true) :
    Keeps full (head.instrument t) fun head' =>
      Timely false full.names fun env => head'.readings env := by
  cases head with
  | none => exact .pure .nil
  | varDecl d => exact (VarDecl.timely_instrument t d full h).bind fun _ hd => .pure hd
  | pat q => exact (Pat.timely_instrument t q full h).bind fun _ hq => .pure hq.weaken
  | expr e => exact (Expr.timely_instrument t e full h).bind fun _ he => .pure he.weaken

end

/-! ### Whole programs -/

theorem Program.isTimely_readings (t : Tracer) (p : Program) (h : p.isPlain = true) :
    IsTimely (p.instrument t).1.readings := by
  obtain ⟨s, hscopes, hprogram⟩ := exists_instrument_eq t p
  have hss := Stmt.timely_instruments t p.body .function (Stmt.varNamesOf p.body) [] h (List.Subset.refl _)
  have hbelow : s.scopes.Below [⟨.function, Stmt.varNamesOf p.body⟩] :=
    hscopes ▸ .cons ⟨rfl, List.nil_subset _⟩ .nil
  have hss := (hss s hbelow).2
  have hvars : Stmt.varNamesOf p.body ⊆
      Stmt.varNamesOf (Stmt.insertAfterDirectives [Probe.fallback] (result (Stmt.instruments t p.body) s)) := by
    rw [← Stmt.varNamesOf_instruments t p.body s, Stmt.varNamesOf_eq_flatMap, Stmt.varNamesOf_eq_flatMap]
    exact subset_flatMap_insertAfterDirectives ..
  rw [hprogram]
  refine isTimely_insertAfterDirectives rfl (fun _ _ _ => .nil) (hss [] _ ?_)
  exact passed_subset ((List.append_nil _).symm ▸ hvars)

/-- Each name that a probe of a plain program reads is bound where the probe stands, and what it resolves to
has been passed there, unless that hides something of this name that has been passed. -/
theorem Program.readings_passed (t : Tracer) (p : Program) (h : p.isPlain = true) :
    ∀ r ∈ (p.instrument t).1.readings, ∀ x ∈ r.names, ∃ b outer, resolution r.env x = b :: outer ∧
      b.name = x ∧ (b.isPassed = true ∨ ⟨x, true⟩ ∈ outer) := by
  intro r hr x hx
  exact resolution_of_mem (Program.isTimely_readings t p h r hr (List.mem_map_of_mem hx))

/-- A function with a block in it and an arrow function, between declarations. -/
theorem Program.readings_passed_nested :
    let at_ (n : Nat) : Place := some ⟨n, n + 1⟩
    let name (n : Nat) (text : String) : Ident := ⟨at_ n, text⟩
    let use (n : Nat) (text : String) : Stmt := .expr (at_ n) (.ident (name n text))
    let declare (n : Nat) (text : String) : Stmt :=
      .varDecl (.mk (at_ n) .let false [.mk (at_ n) (.ident (name n text)) none])
    let f : Function := .mk (at_ 1) false false [] [.mk (at_ 1) [] false (.ident (name 1 "p"))]
      (some (.mk (at_ 2) [use 3 "p", .block (.mk (at_ 4) [use 5 "p", declare 6 "y", use 7 "y"]), use 8 "p"]))
    let g : Expr := .arrow (at_ 9) false [.ident (name 9 "q")] (.expr (.ident (name 9 "q")))
    let p : Program := ⟨false, none, [declare 0 "x", .func (name 1 "f") f, .expr (at_ 9) g, declare 10 "z"]⟩
    let t : Tracer := ⟨"f.js", fun n => ⟨1, n⟩⟩
    p.isPlain = true ∧
      (p.instrument t).1.readings.map Reading.names = [["x"], ["p"], ["x", "p"], ["x", "p"], ["x", "p", "y"],
        ["x", "p", "y"], ["x", "p"], ["q"], ["x"], ["x", "z"]] ∧
      ∀ r ∈ (p.instrument t).1.readings, ∀ x ∈ r.names, ∃ b outer, resolution r.env x = b :: outer ∧
        b.name = x ∧ (b.isPassed = true ∨ ⟨x, true⟩ ∈ outer) := by
  intro at_ name use declare f g p t
  have h : p.isPlain = true := by decide +kernel
  exact ⟨h, by decide +kernel, Program.readings_passed t p h⟩

/-- Shows that the first probe of a block may read the name that a later declaration of the block binds. -/
theorem Program.not_isPassed_of_shadowed :
    let at_ (n : Nat) : Place := some ⟨n, n + 1⟩
    let name (n : Nat) (text : String) : Ident := ⟨at_ n, text⟩
    let declare (n : Nat) (text : String) : Stmt :=
      .varDecl (.mk (at_ n) .let false [.mk (at_ n) (.ident (name n text)) none])
    let p : Program := ⟨false, none, [declare 0 "x",
      .block (.mk (at_ 1) [.expr (at_ 2) (.ident (name 2 "foo")), declare 3 "x"])]⟩
    let t : Tracer := ⟨"f.js", fun n => ⟨1, n⟩⟩
    p.isPlain = true ∧
      (p.instrument t).1.readings.map (fun r => (r.names, (resolution r.env "x").head?)) =
        [(["x"], some ⟨"x", true⟩), (["x"], some ⟨"x", false⟩), (["x"], some ⟨"x", true⟩)] := by
  intro at_ name declare p t
  exact ⟨by decide +kernel, by decide +kernel⟩

end StepTrace.Script
