import StepTrace.Proofs.Script.Captures
import StepTrace.Proofs.Script.Readings

/-!
Probes that read what has been passed, in terms of the names that have been passed around them. A part of a
program says so of every environment with enough names, and the laws put the parts together; the steps of a
traversal put in probes that read no more than has been passed.
-/
namespace StepTrace.Script

open Trace ScopeStack

/-! ### Bindings -/

theorem passed_append (a b : List String) : passed (a ++ b) = passed a ++ passed b := List.map_append

theorem passed_subset {a b : List String} (h : a ⊆ b) : passed a ⊆ passed b := List.map_subset _ h

/-- A name that is bound by something passed resolves to that, or to a binding that hides it. -/
theorem resolution_of_mem {env : List Binding} {x : String} (h : ⟨x, true⟩ ∈ env) :
    ∃ b outer, resolution env x = b :: outer ∧ b.name = x ∧ (b.isPassed = true ∨ ⟨x, true⟩ ∈ outer) := by
  induction env with
  | nil => cases h
  | cons b env ih =>
    by_cases hb : b.name = x
    · refine ⟨b, env, by simp [resolution, hb], hb, ?_⟩
      rcases List.mem_cons.1 h with rfl | h
      · exact Or.inl rfl
      · exact Or.inr h
    · have hne : (⟨x, true⟩ : Binding) ≠ b := fun he => hb (he ▸ rfl)
      obtain ⟨b', outer, hr, hrest⟩ := ih ((List.mem_cons.1 h).resolve_left hne)
      exact ⟨b', outer, by simpa [resolution, hb] using hr, hrest⟩

theorem VarDecl.lexicalNames_subset (d : VarDecl) :
    d.lexicalNames ⊆ match d.kind with | .var => [] | _ => d.boundNames := by
  cases d with
  | mk p kind b items => cases kind <;> simp [VarDecl.lexicalNames, VarDecl.kind]

theorem Stmt.lexicalNames_subset (st : Stmt) : st.lexicalNames ⊆ st.declaredNames := by
  cases st with
  | varDecl d => exact d.lexicalNames_subset
  | exportDecl p d =>
    cases d with
    | varDecl d => exact d.lexicalNames_subset
    | _ => exact List.nil_subset _
  | _ => exact List.nil_subset _

theorem LoopHead.lexicalNames_subset (head : LoopHead) : head.lexicalNames ⊆ head.declaredNames := by
  cases head with
  | varDecl d => exact d.lexicalNames_subset
  | _ => exact List.nil_subset _

theorem passed_lexicalNamesOf_subset (ss : List Stmt) :
    passed (Stmt.lexicalNamesOf ss) ⊆ Stmt.passedNamesOf ss := by
  induction ss with
  | nil => exact List.nil_subset _
  | cons st r ih =>
    rw [Stmt.lexicalNamesOf, List.flatMap_cons, passed_append]
    exact List.append_subset.2
      ⟨List.subset_append_of_subset_left _ (passed_subset st.lexicalNames_subset),
        List.subset_append_of_subset_right _ ih⟩

/-! ### Readings of what is passed -/

/-- Probes that read only names that are bound around them by something passed. -/
def IsTimely (rs : List Reading) : Prop := ∀ r ∈ rs, passed r.names ⊆ r.env

theorem IsTimely.nil : IsTimely [] := fun _ h => nomatch h

theorem isTimely_append {rs rs' : List Reading} : IsTimely (rs ++ rs') ↔ IsTimely rs ∧ IsTimely rs' :=
  List.forall_mem_append

theorem IsTimely.append {rs rs' : List Reading} (h : IsTimely rs) (h' : IsTimely rs') :
    IsTimely (rs ++ rs') := isTimely_append.2 ⟨h, h'⟩

theorem readingsOf_getters (env : List Binding) (names : List String) :
    Property.readingsOf env (names.map Probe.getter) = [] := by
  induction names with
  | nil => rfl
  | cons name r ih => exact ih

/-- The call of a probe is one reading. -/
theorem readings_call (file : String) (site : ProbeSite) (env : List Binding) :
    (Probe.call file site).readings env = [⟨env, site.names⟩] := by
  have hcaptures := captures_call site [.literal none (.boolean (site.kind = .implicitReturn)),
    .literal none (.string file "")] rfl
  have hprobe : (Probe.ident recordName).isProbeCall none = true := rfl
  have hgetters := readingsOf_getters env site.names
  rw [Probe.call, Expr.readings, if_pos hprobe, hcaptures]
  simp [Expr.readings, Expr.readingsOf, Probe.ident, Probe.number, hgetters]

/-- Statements in front of others. -/
theorem Stmt.readingsOf_append (earlier env : List Binding) (a b : List Stmt) :
    Stmt.readingsOf earlier env (a ++ b) =
      Stmt.readingsOf earlier (Stmt.pendingNamesOf b ++ env) a ++
        Stmt.readingsOf (earlier ++ Stmt.passedNamesOf a) env b := by
  induction a generalizing earlier with
  | nil => simp [Stmt.readingsOf, Stmt.passedNamesOf]
  | cons st a ih =>
    simp [Stmt.readingsOf, ih, Stmt.pendingNamesOf, Stmt.passedNamesOf]

/-- Statements that declare nothing bind nothing. -/
theorem Stmt.bindings_eq_nil {ss : List Stmt} (h : ss.flatMap Stmt.declaredNames = []) :
    Stmt.passedNamesOf ss = [] ∧ Stmt.pendingNamesOf ss = [] := by
  have hnone := List.flatMap_eq_nil_iff.1 h
  constructor <;> refine List.flatMap_eq_nil_iff.2 fun st hst => ?_
  · rw [Stmt.passedNames, hnone st hst]
    rfl
  · rw [Stmt.pendingNames, hnone st hst]
    rfl

/-- What is put after the directives and declares nothing changes no other reading. -/
theorem isTimely_insertAfterDirectives {new ss : List Stmt} {earlier env : List Binding}
    (hnone : new.flatMap Stmt.declaredNames = [])
    (hnew : ∀ earlier env', env ⊆ env' → IsTimely (Stmt.readingsOf earlier env' new))
    (hss : IsTimely (Stmt.readingsOf earlier env ss)) :
    IsTimely (Stmt.readingsOf earlier env (Stmt.insertAfterDirectives new ss)) := by
  obtain ⟨hpassed, hpending⟩ := Stmt.bindings_eq_nil hnone
  rw [← List.takeWhile_append_dropWhile (p := Stmt.isDirective) (l := ss), Stmt.readingsOf_append] at hss
  obtain ⟨hbefore, hbehind⟩ := isTimely_append.1 hss
  rw [Stmt.insertAfterDirectives, List.append_assoc, Stmt.readingsOf_append, Stmt.readingsOf_append, hpassed,
    List.append_nil]
  refine IsTimely.append ?_ (IsTimely.append ?_ hbehind)
  · have hsame : Stmt.pendingNamesOf (new ++ ss.dropWhile Stmt.isDirective) =
        Stmt.pendingNamesOf (ss.dropWhile Stmt.isDirective) := by
      rw [Stmt.pendingNamesOf, List.flatMap_append]
      exact congr($hpending ++ _)
    rw [hsame]
    exact hbefore
  · exact hnew _ _ (List.subset_append_right _ _)

/-! ### Readings in terms of what is bound -/

/-- Where some names are bound by something passed, the probes inside read only what has been passed; without
statements inside they do so anywhere. -/
def Timely (isFlat : Bool) (names : List String) (rs : List Binding → List Reading) : Prop :=
  ∀ env, isFlat = true ∨ passed names ⊆ env → IsTimely (rs env)

/-- The same for members of a list of statements. -/
def TimelyList (names : List String) (rs : List Binding → List Binding → List Reading) : Prop :=
  ∀ earlier env, passed names ⊆ earlier ++ env → IsTimely (rs earlier env)

namespace Timely

variable {f g : Bool} {names outer : List String} {a b : List Binding → List Reading}

theorem nil : Timely f names fun _ => [] := fun _ _ => .nil

theorem append (ha : Timely f names a) (hb : Timely g names b) :
    Timely (f && g) names fun env => a env ++ b env := by
  intro env h
  refine (ha env ?_).append (hb env ?_)
  · exact h.imp_left fun h => (Bool.and_eq_true_iff.1 h).1
  · exact h.imp_left fun h => (Bool.and_eq_true_iff.1 h).2

/-- With statements inside. -/
theorem weaken (ha : Timely f names a) : Timely false names a :=
  fun env h => ha env (Or.inr (h.resolve_left Bool.false_ne_true))

/-- More is bound inside: some names of which it matters that they are passed. -/
theorem inside (ha : Timely f (names ++ outer) a) {inner : List Binding} (hinner : passed names ⊆ inner) :
    Timely f outer fun env => a (inner ++ env) := by
  refine fun env h => ha (inner ++ env) (h.imp_right fun h => ?_)
  rw [passed_append]
  exact List.append_subset.2
    ⟨List.subset_append_of_subset_left _ hinner, List.subset_append_of_subset_right _ h⟩

/-- Some names are bound inside, as passed. -/
theorem bound (names : List String) (ha : Timely f (names ++ outer) a) :
    Timely f outer fun env => a (passed names ++ env) :=
  ha.inside (List.Subset.refl _)

/-- More is bound inside. -/
theorem under (ha : Timely f names a) (inner : List Binding) : Timely f names fun env => a (inner ++ env) := by
  rw [← List.nil_append names] at ha
  exact ha.inside (List.nil_subset _)

/-- What stands outside of a function may be traversed in its scope, if no statement is inside or if the scope
has no names. -/
theorem outside (hflat : (names.isEmpty || f) = true) (ha : Timely f (names ++ outer) a) :
    Timely false outer a := by
  intro env h
  rcases Bool.or_eq_true_iff.1 hflat with hempty | hf
  · rw [List.isEmpty_iff.1 hempty] at ha
    exact ha.weaken env h
  · exact ha env (Or.inl hf)

end Timely

/-- More in between. -/
theorem subset_between {α : Type} {l a c : List α} (b : List α) (h : l ⊆ a ++ c) : l ⊆ a ++ b ++ c :=
  List.Subset.trans h (List.append_subset.2
    ⟨List.subset_append_of_subset_left _ (List.subset_append_left a b), List.subset_append_right _ c⟩)

namespace TimelyList

variable {names outer lexical : List String} {rs : List Binding → List Binding → List Reading}

theorem timely (h : TimelyList names rs) : Timely false names (rs []) :=
  fun env henv => h [] env (henv.resolve_left Bool.false_ne_true)

/-- What has been declared has been passed. -/
theorem passed_subset {earlier here env : List Binding} (h : passed (names ++ outer) ⊆ earlier ++ env)
    (hhere : passed lexical ⊆ here) : passed (names ++ lexical ++ outer) ⊆ earlier ++ here ++ env := by
  have h := subset_between here h
  rw [passed_append] at h
  obtain ⟨hnames, houter⟩ := List.append_subset.1 h
  rw [passed_append, passed_append]
  refine List.append_subset.2 ⟨List.append_subset.2 ⟨hnames, ?_⟩, houter⟩
  exact List.subset_append_of_subset_left _ (List.subset_append_of_subset_right _ hhere)

/-- A statement, what was put behind it and the rest of the list. -/
theorem cons {st : Stmt} {new r : List Stmt} (hst : Timely false (names ++ outer) fun env => st.readings env)
    (hlexical : passed lexical ⊆ st.passedNames) (hnone : new.flatMap Stmt.declaredNames = [])
    (hnew : TimelyList (names ++ lexical ++ outer) fun earlier env => Stmt.readingsOf earlier env new)
    (hr : TimelyList (names ++ lexical ++ outer) fun earlier env => Stmt.readingsOf earlier env r) :
    TimelyList (names ++ outer) fun earlier env => Stmt.readingsOf earlier env (st :: new ++ r) := by
  intro earlier env h
  have hmore := passed_subset h hlexical
  show IsTimely (st.readings _ ++ Stmt.readingsOf _ env (new ++ r))
  rw [Stmt.readingsOf_append, (Stmt.bindings_eq_nil hnone).1, List.append_nil]
  refine IsTimely.append (hst _ (Or.inr (subset_between _ h))) (IsTimely.append ?_ (hr _ _ hmore))
  refine hnew _ _ ?_
  rw [← List.append_assoc]
  exact subset_between _ hmore

/-- A clause of a `switch` and the clauses behind it. -/
theorem consClause {c : SwitchCase} {r : List SwitchCase}
    (hc : TimelyList (names ++ outer) fun earlier env => c.readings earlier env)
    (hlexical : passed lexical ⊆ Stmt.passedNamesOf c.stmts)
    (hr : TimelyList (names ++ lexical ++ outer) fun earlier env => SwitchCase.readingsOf earlier env r) :
    TimelyList (names ++ outer) fun earlier env => SwitchCase.readingsOf earlier env (c :: r) := by
  intro earlier env h
  refine IsTimely.append (hc _ _ ?_) (hr _ _ (passed_subset h hlexical))
  rw [← List.append_assoc]
  exact subset_between _ h

end TimelyList

/-! ### Steps of a traversal -/

/-- Probes declare nothing. -/
theorem declaredNames_probe (c : Option Expr) :
    (c.map Probe.stmt).toList.flatMap Stmt.declaredNames = [] := by
  cases c <;> rfl

theorem timelyList_probe {names : List String} {c : Option Expr}
    (h : ∀ e ∈ c, Timely false names fun env => e.readings env) :
    TimelyList names fun earlier env => Stmt.readingsOf earlier env (c.map Probe.stmt).toList := by
  intro earlier env hnames
  cases c with
  | none => exact .nil
  | some e =>
    exact (h e rfl _ (Or.inr (subset_between [] hnames))).append .nil

namespace Trace

variable {full : ScopeStack} {names outer : List String}

theorem timely_probe (t : Tracer) (kind : ProbeKind) (p : Place) (names : List String) (full : ScopeStack) :
    Keeps full (probe t kind p names) fun c => ∀ e ∈ c, Timely false names fun env => e.readings env := by
  intro s hs
  cases p with
  | none => exact ⟨hs, fun _ he => by cases he⟩
  | some span =>
    refine ⟨hs, fun e he env hnames => ?_⟩
    cases he
    show IsTimely ((Probe.call _ _).readings env)
    rw [readings_call]
    exact List.forall_mem_singleton.2 (hnames.resolve_left Bool.false_ne_true)

/-- A probe after a statement declares nothing, and reads what is in scope. -/
theorem timely_stmtProbe (t : Tracer) (p : Place) (full : ScopeStack) :
    Keeps full (stmtProbe t p) fun new => new.flatMap Stmt.declaredNames = [] ∧
      TimelyList full.names fun earlier env => Stmt.readingsOf earlier env new := by
  intro s hs
  obtain ⟨hb, hc⟩ := timely_probe t .statement p s.scopes.visible full s hs
  refine ⟨hb, declaredNames_probe _, timelyList_probe fun e he env hnames => hc e he env ?_⟩
  exact hnames.imp_right (List.Subset.trans (passed_subset hs.visible_subset))

/-- The body of a function, after a probe that reads its parameters. -/
theorem timely_entering (t : Tracer) (p : Place) {body : Trace Block} (hnames : names ⊆ outer)
    (h : Keeps full body fun b => Timely false outer fun env => b.readings env) :
    Keeps full (entering t p names body) fun b => Timely false outer fun env => b.readings env := by
  refine (timely_probe t .entry p names full).bind fun c hc => ?_
  refine h.bind fun b hb => ?_
  cases b with
  | mk q ss =>
    refine .pure fun env henv => isTimely_insertAfterDirectives (declaredNames_probe c) ?_ (hb env henv)
    intro earlier env' hsub
    have hnames := List.Subset.trans (passed_subset hnames) (henv.resolve_left Bool.false_ne_true)
    exact timelyList_probe hc earlier env'
      (List.subset_append_of_subset_right _ (List.Subset.trans hnames hsub))

/-- The value of an arrow function, after a probe that reads its parameters. -/
theorem timely_returning (t : Tracer) (p : Place) {isFlat : Bool} {value : Trace Expr}
    (h : Keeps full value fun e => Timely isFlat outer fun env => e.readings (passed names ++ env)) :
    Keeps full (returning t p names value) fun e =>
      Timely isFlat outer fun env => e.readings (passed names ++ env) := by
  refine (timely_probe t .implicitReturn p names full).bind fun c hc => ?_
  refine h.bind fun e he => .pure ?_
  cases c with
  | none => exact he
  | some c =>
    intro env henv
    have hcall := hc c rfl (passed names ++ env) (Or.inr (List.subset_append_left _ _))
    exact hcall.append ((he env henv).append .nil)

end Trace

/-! ### Parts put together -/

/-- A call that does not look like a probe is none. -/
theorem timely_call {p : Place} {l : Link} {e : Expr} {args : List Expr} {f g : Bool} (isCall : Bool)
    {names : List String} (hp : (!e.isProbeCall p) = true) (he : Timely f names fun env => e.readings env)
    (hargs : Timely g names fun env => Expr.readingsOf env args) :
    Timely (isCall && f && g) names fun env => (Expr.call p l e args).readings env := by
  have hnone : ∀ env, (Expr.call p l e args).readings env =
      [] ++ e.readings env ++ Expr.readingsOf env args := by
    intro env
    rw [Expr.readings, if_neg (by simpa using hp)]
  simp only [hnone]
  exact (Timely.nil.append he).append hargs

/-- The body of a function; what it declares by `var` is in the scope of its parameters. -/
theorem timely_body {b b' : Block} {names outer : List String} (hvars : b'.varNames = b.varNames)
    (h : Timely false (b.varNames ++ names ++ outer) fun env => b'.readings env) :
    Timely false (names ++ outer) fun env => b'.readings (passed b'.varNames ++ env) := by
  rw [List.append_assoc, ← hvars] at h
  exact h.bound _

end StepTrace.Script
