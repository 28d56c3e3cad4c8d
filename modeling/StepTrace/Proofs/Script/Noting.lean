import StepTrace.Proofs.Script.Bracketing
import StepTrace.Proofs.Script.Demands

/-!
What a traversal notes: the names that it declares on the way, in steps that change the scopes, and the probes
that it makes after steps, which meet what is demanded of them as long as the scopes show what can be read. What
a traversal notes is put together from what its steps note.
-/
namespace StepTrace.Script

/-! ### Names that are read -/

/-- All that is due is among the names that are read; what is late need not be. -/
def AllRead (env : List Due) (names : List String) : Prop :=
  ∀ d ∈ env, d.isLate = false → d.name ∈ names

theorem allRead_nil (names : List String) : AllRead [] names := fun _ h => nomatch h

theorem allRead_due_append {l names : List String} {env : List Due} :
    AllRead (due l ++ env) names ↔ l ⊆ names ∧ AllRead env names := by
  constructor
  · intro h
    refine ⟨fun x hx => ?_, fun d hd => h d (List.mem_append_right _ hd)⟩
    exact h ⟨x, false⟩ (List.mem_append_left _ (List.mem_map.2 ⟨x, hx, rfl⟩)) rfl
  · rintro ⟨hl, henv⟩ d hd hlate
    rcases List.mem_append.1 hd with hd | hd
    · obtain ⟨x, hx, rfl⟩ := List.mem_map.1 hd
      exact hl hx
    · exact henv d hd hlate

theorem AllRead.late {env : List Due} {names : List String} (h : AllRead env names) (l : List String) :
    AllRead (lateDue l ++ env) names := by
  intro d hd hlate
  rcases List.mem_append.1 hd with hd | hd
  · obtain ⟨x, -, rfl⟩ := List.mem_map.1 hd
    cases hlate
  · exact h d hd hlate

/-- A probe that stands where it should, and reads what is due there. -/
structure Demand.Met (t : Tracer) (d : Demand) (x : ProbeSite) : Prop where
  position_eq : x.position = t.position d.span.start
  reads : AllRead d.dues x.names

/-- No probe reads all arguments, and one after a step reads no name twice. -/
structure ProbeSite.IsProper (x : ProbeSite) : Prop where
  lacks : argumentsName ∉ x.names
  nodup : x.kind = .statement → x.names.Nodup

/-- The probes after steps so far, the latest first. -/
def Tracing.steps (s : Tracing) : List ProbeSite := s.sites.filter (·.kind = .statement)

/-! ### Steps that declare -/

namespace ScopeStep

/-- The name that a step declares. -/
def name? : ScopeStep → Option String
  | .declare x | .declareVar x => some x
  | .push _ | .pushFunction _ | .pop => none

def varName? : ScopeStep → Option String
  | .declareVar x => some x
  | .declare _ | .push _ | .pushFunction _ | .pop => none

def lexicalName? : ScopeStep → Option String
  | .declare x => some x
  | .declareVar _ | .push _ | .pushFunction _ | .pop => none

end ScopeStep

/-- Steps that only declare, and never the name of all arguments. -/
def AreDeclarations (w : List ScopeStep) : Prop := ∀ o ∈ w, ∃ x, o.name? = some x ∧ x ≠ argumentsName

/-- Steps that declare names by `var`, with `vars` among them, and `lexical` in the innermost scope. -/
structure Declares (w : List ScopeStep) (vars lexical : List String) : Prop where
  areDeclarations : AreDeclarations w
  vars_subset : vars ⊆ w.filterMap ScopeStep.varName?
  lexical_eq : w.filterMap ScopeStep.lexicalName? = lexical

namespace AreDeclarations

open ScopeStep (opened outerVars)

variable {w : List ScopeStep}

/-- Declarations open no scopes and close none. -/
theorem opened_eq (h : AreDeclarations w) (ks : List ScopeKind) : opened ks w = some ks := by
  induction w with
  | nil => rfl
  | cons o w ih =>
    obtain ⟨⟨x, ho, -⟩, hw⟩ := List.forall_mem_cons.1 h
    cases o with
    | declare | declareVar => exact ih hw
    | push | pushFunction | pop => cases ho

theorem outerVars_eq (h : AreDeclarations w) : outerVars [] w = w.filterMap ScopeStep.varName? := by
  induction w with
  | nil => rfl
  | cons o w ih =>
    obtain ⟨⟨x, ho, -⟩, hw⟩ := List.forall_mem_cons.1 h
    cases o with
    | declare => exact ih hw
    | declareVar x => exact congrArg (x :: ·) (ih hw)
    | push | pushFunction | pop => cases ho

theorem arguments_not_mem_outerVars (h : AreDeclarations w) : argumentsName ∉ outerVars [] w := by
  rw [h.outerVars_eq]
  intro hm
  obtain ⟨o, ho, hname⟩ := List.mem_filterMap.1 hm
  obtain ⟨x, hx, hne⟩ := h o ho
  cases o with
  | declareVar y => exact hne (Option.some.inj (hx.symm.trans hname))
  | declare | push | pushFunction | pop => cases hname

end AreDeclarations

namespace Declares

variable {w w' : List ScopeStep} {va vb la lb : List String}

theorem nil : Declares [] [] [] where
  areDeclarations := fun _ h => nomatch h
  vars_subset := List.Subset.refl _
  lexical_eq := rfl

theorem append (h : Declares w va la) (h' : Declares w' vb lb) :
    Declares (w ++ w') (va ++ vb) (la ++ lb) := by
  refine ⟨List.forall_mem_append.2 ⟨h.areDeclarations, h'.areDeclarations⟩, ?_, ?_⟩
  · rw [List.filterMap_append]
    exact List.append_subset.2 ⟨List.subset_append_of_subset_left _ h.vars_subset,
      List.subset_append_of_subset_right _ h'.vars_subset⟩
  · rw [List.filterMap_append, h.lexical_eq, h'.lexical_eq]

theorem vars {l : List String} (h : argumentsName ∉ l) : Declares (l.map .declareVar) l [] := by
  refine ⟨fun o ho => ?_, ?_, ?_⟩
  · obtain ⟨x, hx, rfl⟩ := List.mem_map.1 ho
    exact ⟨x, rfl, fun he => h (he ▸ hx)⟩
  · rw [List.filterMap_map]
    exact fun x hx => List.mem_filterMap.2 ⟨x, hx, rfl⟩
  · rw [List.filterMap_map]
    exact List.filterMap_eq_nil_iff.2 fun _ _ => rfl

theorem lexical {l : List String} (h : argumentsName ∉ l) : Declares (l.map .declare) [] l := by
  refine ⟨fun o ho => ?_, List.nil_subset _, ?_⟩
  · obtain ⟨x, hx, rfl⟩ := List.mem_map.1 ho
    exact ⟨x, rfl, fun he => h (he ▸ hx)⟩
  · rw [List.filterMap_map]
    exact List.filterMap_some

/-- What is declared by `var` goes through a block. -/
theorem outer (h : Declares w va la) : Declares ((ScopeStep.outerVars [] w).map .declareVar) va [] := by
  have hvars := vars h.areDeclarations.arguments_not_mem_outerVars
  have hsub : va ⊆ ScopeStep.outerVars [] w := h.areDeclarations.outerVars_eq ▸ h.vars_subset
  exact { hvars with vars_subset := List.Subset.trans hsub hvars.vars_subset }

end Declares

namespace ScopeStack

/-- A function is open. -/
def InFunction (s : ScopeStack) : Prop := .function ∈ s.map Scope.kind

theorem mem_insertName_iff {x y : String} (hx : x ≠ argumentsName) {names : List String} :
    y ∈ insertName names x ↔ y ∈ names ∨ y = x := by
  unfold insertName
  split
  · next h => exact (or_iff_left_of_imp fun hy => hy ▸ h.resolve_left hx).symm
  · exact List.mem_append.trans (or_congr_right List.mem_singleton)

/-- One of the scopes has a name. -/
def Has (s : ScopeStack) (y : String) : Prop := ∃ scope ∈ s, y ∈ scope.names

theorem has_cons {scope : Scope} {s : ScopeStack} {y : String} :
    Has (scope :: s) y ↔ y ∈ scope.names ∨ s.Has y := List.exists_mem_cons_iff ..

theorem has_declare {s : ScopeStack} (hf : s.InFunction) {x y : String} (hx : x ≠ argumentsName) :
    (s.declare x).Has y ↔ s.Has y ∨ y = x := by
  cases s with
  | nil => cases hf
  | cons scope s => rw [declare, has_cons, has_cons, mem_insertName_iff hx, or_right_comm]

theorem has_declareVar {s : ScopeStack} (hf : s.InFunction) {x y : String} (hx : x ≠ argumentsName) :
    (s.declareVar x).Has y ↔ s.Has y ∨ y = x := by
  induction s with
  | nil => cases hf
  | cons scope s ih =>
    by_cases h : scope.kind = .function
    · rw [declareVar, if_pos h, has_cons, has_cons, mem_insertName_iff hx, or_right_comm]
    · have hs : InFunction s := (List.mem_cons.1 hf).resolve_left fun he => h he.symm
      rw [declareVar, if_neg h, has_cons, has_cons, ih hs, or_assoc]

theorem map_kind_declareVar (s : ScopeStack) (x : String) :
    (s.declareVar x).map Scope.kind = s.map Scope.kind := by
  induction s with
  | nil => rfl
  | cons scope s ih =>
    unfold declareVar
    split
    · rfl
    · exact congrArg (scope.kind :: ·) ih

theorem run_declares (s : ScopeStack) (names : List String) :
    s.run (names.map .declare) = s.declareAll names := List.foldl_map

theorem run_declareVars (s : ScopeStack) (names : List String) :
    s.run (names.map .declareVar) = names.foldl declareVar s := List.foldl_map

/-- A declaration leaves the kinds of the scopes. -/
theorem map_kind_take {s : ScopeStack} {o : ScopeStep} {x : String} (ho : o.name? = some x) :
    (s.take o).map Scope.kind = s.map Scope.kind := by
  cases o with
  | declare y => cases s <;> rfl
  | declareVar y => exact map_kind_declareVar s y
  | push | pushFunction | pop => cases ho

theorem visible_push (s : ScopeStack) (kind : ScopeKind) : (s.push kind).visible = s.visible := by
  simp [visible, push]

/-- A name that is declared in a function can be read from then on. -/
theorem mem_visible_take {s : ScopeStack} (hf : s.InFunction) {o : ScopeStep} {x y : String}
    (ho : o.name? = some x) (hx : x ≠ argumentsName) :
    y ∈ (s.take o).visible ↔ y ∈ s.visible ∨ y = x := by
  have hhas : (s.take o).Has y ↔ s.Has y ∨ y = x := by
    cases o with
    | declare => cases ho; exact has_declare hf hx
    | declareVar => cases ho; exact has_declareVar hf hx
    | push | pushFunction | pop => cases ho
  calc y ∈ (s.take o).visible ↔ (s.take o).Has y ∧ y ≠ argumentsName := mem_visible
    _ ↔ s.Has y ∧ y ≠ argumentsName ∨ y = x ∧ y ≠ argumentsName := by rw [hhas, or_and_right]
    _ ↔ y ∈ s.visible ∨ y = x :=
      or_congr mem_visible.symm (and_iff_left_of_imp fun hy => hy ▸ hx)

end ScopeStack

open ScopeStack

section Declarations

variable {w : List ScopeStep} {va la : List String} {s : ScopeStack}

/-- After declarations the same scopes are open. -/
theorem AreDeclarations.map_kind_run (h : AreDeclarations w) (s : ScopeStack) :
    (s.run w).map Scope.kind = s.map Scope.kind := by
  induction w generalizing s with
  | nil => rfl
  | cons o w ih =>
    obtain ⟨⟨x, ho, -⟩, hw⟩ := List.forall_mem_cons.1 h
    exact (ih hw (s.take o)).trans (map_kind_take ho)

theorem AreDeclarations.inFunction_run (h : AreDeclarations w) (hf : s.InFunction) :
    (s.run w).InFunction := by
  rw [InFunction, h.map_kind_run]
  exact hf

theorem AreDeclarations.mem_visible_run (h : AreDeclarations w) (hf : s.InFunction) {y : String} :
    y ∈ (s.run w).visible ↔ y ∈ s.visible ∨ y ∈ w.filterMap ScopeStep.name? := by
  induction w generalizing s with
  | nil => simp
  | cons o w ih =>
    obtain ⟨⟨x, ho, hx⟩, hw⟩ := List.forall_mem_cons.1 h
    have hf' : (s.take o).InFunction := (map_kind_take ho).symm.subst (motive := (.function ∈ ·)) hf
    have hrun := ih hw hf'
    rw [mem_visible_take hf ho hx, or_assoc, ← List.mem_cons, ← List.filterMap_cons_some ho] at hrun
    exact hrun

theorem Declares.subset_names (h : Declares w va la) : va ++ la ⊆ w.filterMap ScopeStep.name? := by
  refine List.append_subset.2 ⟨fun x hx => ?_, fun x hx => ?_⟩
  · obtain ⟨o, ho, hname⟩ := List.mem_filterMap.1 (h.vars_subset hx)
    refine List.mem_filterMap.2 ⟨o, ho, ?_⟩
    cases o with
    | declareVar y => exact hname
    | _ => cases hname
  · rw [← h.lexical_eq] at hx
    obtain ⟨o, ho, hname⟩ := List.mem_filterMap.1 hx
    refine List.mem_filterMap.2 ⟨o, ho, ?_⟩
    cases o with
    | declare y => exact hname
    | _ => cases hname

/-- Declarations leave what can be read, and show what they declare. -/
theorem Declares.allRead (h : Declares w va la) (hf : s.InFunction) {env : List Due}
    (henv : AllRead env s.visible) : AllRead (due (va ++ la) ++ env) (s.run w).visible := by
  have hmem : ∀ y, y ∈ (s.run w).visible ↔ y ∈ s.visible ∨ y ∈ w.filterMap ScopeStep.name? :=
    fun _ => h.areDeclarations.mem_visible_run hf
  refine allRead_due_append.2 ⟨fun x hx => ?_, fun d hd hlate => ?_⟩
  · exact (hmem x).2 (Or.inr (h.subset_names hx))
  · exact (hmem d.name).2 (Or.inl (henv d hd hlate))

end Declarations

/-! ### Names that are bound -/

theorem Pat.arguments_not_mem_boundNames (q : Pat) : argumentsName ∉ q.boundNames := by
  rw [Pat.boundNames_eq]
  intro h
  exact of_decide_eq_true (List.mem_filter.1 h).2 rfl

theorem Pat.arguments_not_mem_boundNamesOf (qs : List Pat) : argumentsName ∉ Pat.boundNamesOf qs := by
  rw [Pat.boundNamesOf_eq]
  intro h
  exact of_decide_eq_true (List.mem_filter.1 h).2 rfl

/-! ### What a traversal notes -/

namespace Trace

/-- What happens from one state to another: names are declared, at least `vars` by `var` and just `lexical` for
the innermost scope; if `env` is shown in a function, the probes that are made after steps meet the demands
`ds`; and what probes are made is proper. -/
structure Noted (t : Tracer) (env : List Due) (ds : List Demand) (vars lexical : List String)
    (s s' : Tracing) : Prop where
  scopes : ∃ w, Declares w vars lexical ∧ s'.scopes = s.scopes.run w
  steps : s.scopes.InFunction → AllRead env s.scopes.visible →
    ∃ new, s'.steps = new.reverse ++ s.steps ∧ List.Forall₂ (Demand.Met t) ds new
  sites : ∀ x ∈ s'.sites, x ∈ s.sites ∨ x.IsProper

/-- A traversal does so from every state. -/
def Notes {α : Type} (t : Tracer) (env : List Due) (ds : List Demand) (vars lexical : List String)
    (m : Trace α) : Prop := ∀ s, Noted t env ds vars lexical s (m s).2

variable {t : Tracer} {env env' : List Due} {ds ds' : List Demand} {va vb la lb : List String}

namespace Noted

variable {s s' s'' : Tracing}

theorem refl (s : Tracing) : Noted t env [] [] [] s s where
  scopes := ⟨[], .nil, rfl⟩
  steps := fun _ _ => ⟨[], rfl, .nil⟩
  sites := fun _ h => Or.inl h

theorem trans (h : Noted t env ds va la s s') (h' : Noted t (due (va ++ la) ++ env) ds' vb lb s' s'') :
    Noted t env (ds ++ ds') (va ++ vb) (la ++ lb) s s'' := by
  obtain ⟨w, hw, hs⟩ := h.scopes
  obtain ⟨w', hw', hs'⟩ := h'.scopes
  refine ⟨⟨w ++ w', hw.append hw', ?_⟩, fun hf henv => ?_, fun x hx => ?_⟩
  · rw [hs', hs, run_append]
  · have hf' : s'.scopes.InFunction := hs ▸ hw.areDeclarations.inFunction_run hf
    obtain ⟨new, hnew, hmet⟩ := h.steps hf henv
    obtain ⟨new', hnew', hmet'⟩ := h'.steps hf' (hs ▸ hw.allRead hf henv)
    refine ⟨new ++ new', ?_, List.rel_append hmet hmet'⟩
    rw [hnew', hnew, List.reverse_append, List.append_assoc]
  · exact (h'.sites x hx).elim (h.sites x) Or.inr

end Noted

namespace Notes

variable {α β : Type} {m : Trace α} {k : α → Trace β}

theorem pure (x : α) : Notes t env [] [] [] (pure x) := Noted.refl

theorem bind (h : Notes t env ds va la m)
    (hk : ∀ s, Notes t (due (va ++ la) ++ env) ds' vb lb (k (result m s))) :
    Notes t env (ds ++ ds') (va ++ vb) (la ++ lb) (m >>= k) :=
  fun s => (h s).trans (hk s (m s).2)

/-- After a traversal that declares only by `var`. -/
theorem andThen (h : Notes t env ds va [] m) (hk : ∀ s, Notes t (due va ++ env) ds' vb lb (k (result m s))) :
    Notes t env (ds ++ ds') (va ++ vb) lb (m >>= k) :=
  h.bind ((List.append_nil va).symm ▸ hk)

/-- After a traversal that declares nothing that matters. -/
theorem seq (h : Notes t env ds [] [] m) (hk : ∀ s, Notes t env ds' vb lb (k (result m s))) :
    Notes t env (ds ++ ds') vb lb (m >>= k) := h.andThen hk

/-- Before a traversal that declares nothing that matters. -/
theorem last (h : Notes t env ds va la m)
    (hk : ∀ s, Notes t (due (va ++ la) ++ env) ds' [] [] (k (result m s))) :
    Notes t env (ds ++ ds') va la (m >>= k) := by
  have hall := h.bind hk
  rwa [List.append_nil, List.append_nil] at hall

theorem map {f : α → β} (h : Notes t env ds va la m) :
    Notes t env ds va la (m >>= fun x => Pure.pure (f x)) := h

/-- With more to read around. -/
theorem weaken (h : Notes t env ds va la m) (hsub : ∀ names, AllRead env' names → AllRead env names) :
    Notes t env' ds va la m := fun s =>
  { h s with steps := fun hf henv => (h s).steps hf (hsub _ henv) }

theorem under (l : List String) (h : Notes t env ds va la m) : Notes t (due l ++ env) ds va la m :=
  h.weaken fun _ hread => (allRead_due_append.1 hread).2

/-- What is late need not be read. -/
theorem late (l : List String) (h : Notes t (lateDue l ++ env) ds va la m) : Notes t env ds va la m :=
  h.weaken fun _ hread => hread.late l

/-- What is declared by `var` need not matter. -/
theorem drop (h : Notes t env ds va la m) : Notes t env ds [] la m := by
  intro s
  obtain ⟨w, hw, hs⟩ := (h s).scopes
  exact { h s with scopes := ⟨w, { hw with vars_subset := List.nil_subset _ }, hs⟩ }

/-- In a scope of its own, in which some names are declared at first, only what is declared by `var` in a block
is not lost. -/
theorem inScope {enter : ScopeStack → ScopeStack} (kind : ScopeKind) {names : List String}
    (henter : ∀ s, enter s = (s.push kind).declareAll names) (hnames : argumentsName ∉ names)
    (h : Notes t (due names ++ env) ds va la m) :
    Notes t env ds (if kind = .function then [] else va) [] (inScope enter m) := by
  intro s
  obtain ⟨⟨w, hw, hs⟩, hsteps, hsites⟩ := h { s with scopes := enter s.scopes }
  have hfirst := Declares.lexical hnames
  have hall := hfirst.append hw
  have hopen : enter s.scopes = run (s.scopes.push kind) (names.map .declare) := by
    rw [henter, run_declares]
  have hclose : (Trace.inScope enter m s).2.scopes = if kind = .function then s.scopes else
      s.scopes.run ((ScopeStep.outerVars [] (names.map .declare ++ w)).map .declareVar) := by
    have hpop := pop_run (hall.areDeclarations.opened_eq []) ⟨kind, []⟩ s.scopes
    rw [run_append] at hpop
    rw [run_declareVars]
    exact (congrArg pop (hs.trans (congrArg (·.run w) hopen))).trans hpop
  refine ⟨?_, fun hf henv => ?_, hsites⟩
  · cases kind with
    | function => exact ⟨[], .nil, hclose⟩
    | block => exact ⟨_, hall.outer, hclose⟩
  · have hf' : (s.scopes.push kind).InFunction := List.mem_cons_of_mem _ hf
    have hin : (enter s.scopes).InFunction := hopen ▸ hfirst.areDeclarations.inFunction_run hf'
    exact hsteps hin (hopen ▸ hfirst.allRead hf' (visible_push s.scopes kind ▸ henv))

theorem inBlock (h : Notes t env ds va la m) : Notes t env ds va [] (inBlock m) :=
  .inScope .block (fun _ => rfl) List.not_mem_nil h

/-- The parameters of a function can be read in it, and nothing is declared by it. -/
theorem inFunction {names : List String} (hnames : argumentsName ∉ names)
    (h : Notes t (due names ++ env) ds [] [] m) : Notes t env ds [] [] (inFunction names m) :=
  .inScope .function (fun _ => rfl) hnames h

theorem inCatch {names : List String} (hnames : argumentsName ∉ names)
    (h : Notes t (due names ++ env) ds va [] m) :
    Notes t env ds va [] (Trace.inScope (fun s => (s.push .block).declareAll names) m) :=
  .inScope .block (fun _ => rfl) hnames h

end Notes

/-! ### What the steps of a traversal note -/

/-- The probe of a function is none after a step. -/
theorem notes_probe (t : Tracer) (env : List Due) {kind : ProbeKind} (hkind : kind ≠ .statement) (p : Place)
    {names : List String} (hnames : argumentsName ∉ names) :
    Notes t env [] [] [] (probe t kind p names) := by
  intro s
  cases p with
  | none => exact .refl s
  | some span =>
    refine ⟨⟨[], .nil, rfl⟩, fun _ _ => ⟨[], ?_, .nil⟩, fun x hx => ?_⟩
    · exact List.filter_cons_of_neg fun h => hkind (of_decide_eq_true h)
    · refine (List.mem_cons.1 hx).symm.imp_right fun hx => ?_
      subst hx
      exact ⟨hnames, fun h => absurd h hkind⟩

theorem notes_stmtProbe (t : Tracer) (env : List Due) (p : Place) :
    Notes t env (p.map fun span => ⟨span, env⟩).toList [] [] (stmtProbe t p) := by
  intro s
  cases p with
  | none => exact .refl s
  | some span =>
    refine ⟨⟨[], .nil, rfl⟩, fun _ henv => ?_, fun x hx => ?_⟩
    · exact ⟨[⟨.statement, t.position span.start, s.scopes.visible⟩], rfl, .cons ⟨rfl, henv⟩ .nil⟩
    · refine (List.mem_cons.1 hx).symm.imp_right fun hx => ?_
      subst hx
      exact ⟨fun h => (mem_visible.1 h).2 rfl, fun _ => nodup_visible _⟩

theorem notes_declareVars (t : Tracer) (env : List Due) (d : VarDecl) :
    Notes t env [] d.varNames d.lexicalNames (declareVars d) := by
  intro s
  have hnames : argumentsName ∉ d.boundNames := Pat.arguments_not_mem_boundNamesOf _
  obtain ⟨p, kind, b, items⟩ := d
  cases kind with
  | var =>
    have hscopes := run_declareVars s.scopes (VarDecl.mk p .var b items).boundNames
    exact ⟨⟨_, .vars hnames, hscopes.symm⟩, fun _ _ => ⟨[], rfl, .nil⟩, fun _ h => Or.inl h⟩
  | «let» | const =>
    have hscopes := run_declares s.scopes (VarDecl.mk p .let b items).boundNames
    exact ⟨⟨_, .lexical hnames, hscopes.symm⟩, fun _ _ => ⟨[], rfl, .nil⟩, fun _ h => Or.inl h⟩
  | «using» | awaitUsing => exact .refl s

theorem notes_declareHead (t : Tracer) (env : List Due) (h : LoopHead) :
    Notes t env [] h.varNames h.lexicalNames (declareHead h) := by
  cases h with
  | varDecl d => exact notes_declareVars t env d
  | none | pat | expr => exact .pure ()

/-- What the head of a loop declares can be read in the loop. -/
theorem notes_inLoop {α : Type} {m : Trace α} (head : LoopHead) (h : Notes t (head.leave env) ds va [] m) :
    Notes t env ds (head.varNames ++ va) [] (inBlock (declareHead head >>= fun _ => m)) :=
  ((notes_declareHead t env head).bind (k := fun _ => m) fun _ => h).inBlock

/-- After a statement its names are declared, and if it is a step the probe reads them as well. -/
theorem notes_after (t : Tracer) (env : List Due) (st : Stmt) :
    Notes t env (st.step?.map fun span => ⟨span, due (st.ownVars ++ st.lexicalNames) ++ env⟩).toList
      st.ownVars st.lexicalNames (after t st) := by
  cases st with
  | varDecl d =>
    refine (notes_declareVars t env d).last fun _ => ?_
    cases hd : d.isDeclare || d.kind = .using || d.kind = .awaitUsing with
    | true =>
      simp only [Stmt.step?, hd, if_true]
      exact .pure []
    | false =>
      simp only [Stmt.step?, hd, Bool.false_eq_true, if_false]
      exact notes_stmtProbe t _ d.place
  | exportDecl p d =>
    cases d with
    | varDecl d => exact (notes_declareVars t env d).last fun _ => notes_stmtProbe t _ p
    | _ => exact .pure []
  | expr p e =>
    simp only [Stmt.step?, after]
    split
    · exact .pure []
    · exact notes_stmtProbe t env p
  | _ => exact .pure []

/-- The body of a function, after a probe that reads its parameters. -/
theorem Notes.entering {m : Trace Block} (h : Notes t env ds va la m) (p : Place) {names : List String}
    (hnames : argumentsName ∉ names) : Notes t env ds va la (entering t p names m) := by
  rw [entering_eq]
  exact (notes_probe t env (by decide) p hnames).seq fun _ => h.map

/-- The value of an arrow function, after a probe that reads its parameters. -/
theorem Notes.returning {m : Trace Expr} (h : Notes t env ds va la m) (p : Place) {names : List String}
    (hnames : argumentsName ∉ names) : Notes t env ds va la (returning t p names m) :=
  (notes_probe t env (by decide) p hnames).seq fun _ => h.map

end Trace

end StepTrace.Script
