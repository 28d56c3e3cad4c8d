import StepTrace.Proofs.Script.Scoping
import StepTrace.Proofs.Script.Unprobe

/-!
Probes declare nothing: a part of a program with its probes declares the names that it declares without
them, in the same order.
-/
namespace StepTrace.Script

open Trace

/-! ### What is added -/

/-- What follows a statement are probes. -/
theorem exists_of_mem_after {t : Tracer} {st new : Stmt} {s : Tracing}
    (h : new ∈ result (after t st) s) : ∃ site, new = Probe.stmt (Probe.call t.file site) := by
  have hprobe : ∀ (p : Place) (s : Tracing), new ∈ result (stmtProbe t p) s →
      ∃ site, new = Probe.stmt (Probe.call t.file site) := by
    intro p s h
    cases p with
    | none => cases h
    | some span => exact ⟨_, List.mem_singleton.1 h⟩
  unfold after at h
  split at h
  · rw [result_bind] at h
    split at h
    · cases h
    · exact hprobe _ _ h
  · exact hprobe _ _ h
  · split at h
    · cases h
    · exact hprobe _ _ h
  · cases h

/-- What is put after the directives adds nothing of a kind that it has nothing of. -/
theorem flatMap_insertAfterDirectives {α : Type} {f : Stmt → List α} {new : List Stmt}
    (hnew : new.flatMap f = []) (ss : List Stmt) :
    (Stmt.insertAfterDirectives new ss).flatMap f = ss.flatMap f := by
  rw [Stmt.insertAfterDirectives, List.flatMap_append, List.flatMap_append, hnew, List.append_nil,
    ← List.flatMap_append, List.takeWhile_append_dropWhile]

/-- What is put after the directives takes nothing away. -/
theorem subset_flatMap_insertAfterDirectives {α : Type} (new : List Stmt) (f : Stmt → List α)
    (ss : List Stmt) : ss.flatMap f ⊆ (Stmt.insertAfterDirectives new ss).flatMap f := by
  intro x hx
  obtain ⟨st, hst, hx⟩ := List.mem_flatMap.1 hx
  rw [← List.takeWhile_append_dropWhile (p := Stmt.isDirective) (l := ss)] at hst
  refine List.mem_flatMap.2 ⟨st, ?_, hx⟩
  rcases List.mem_append.1 hst with hst | hst
  · exact List.mem_append_left _ (List.mem_append_left _ hst)
  · exact List.mem_append_right _ hst

/-- What holds of each statement and of those that are put after the directives holds of all. -/
theorem all_insertAfterDirectives {f : Stmt → Bool} {new ss : List Stmt} (hnew : new.all f = true)
    (hss : ss.all f = true) : (Stmt.insertAfterDirectives new ss).all f = true := by
  rw [← List.takeWhile_append_dropWhile (p := Stmt.isDirective) (l := ss), List.all_append] at hss
  obtain ⟨hbefore, hbehind⟩ := Bool.and_eq_true_iff.1 hss
  rw [Stmt.insertAfterDirectives, List.all_append, List.all_append, hbefore, hnew, hbehind]
  rfl

theorem Stmt.varNamesOf_eq_flatMap (ss : List Stmt) : Stmt.varNamesOf ss = ss.flatMap Stmt.varNames := by
  induction ss with
  | nil => rfl
  | cons s r ih => exact congr(s.varNames ++ $ih)

/-- The statements with a probe after each have of each kind what the statements themselves have. -/
theorem flatMap_instruments_cons {α : Type} {f : Stmt → List α} (t : Tracer) (st : Stmt)
    (r : List Stmt) (s : Tracing) (hprobe : ∀ site, f (Probe.stmt (Probe.call t.file site)) = [])
    (hst : ∀ s, f (result (st.instrument t) s) = f st)
    (hr : ∀ s, (result (Stmt.instruments t r) s).flatMap f = r.flatMap f) :
    (result (Stmt.instruments t (st :: r)) s).flatMap f = (st :: r).flatMap f := by
  obtain ⟨s₁, s₂, h⟩ := result_instruments_cons t st r s
  have hafter : (result (after t (result (st.instrument t) s)) s₁).flatMap f = [] := by
    refine List.flatMap_eq_nil_iff.2 fun new hnew => ?_
    obtain ⟨site, rfl⟩ := exists_of_mem_after hnew
    exact hprobe site
  rw [h, List.cons_append, List.flatMap_cons, List.flatMap_append, hafter, hst, hr, List.flatMap_cons,
    List.nil_append]

theorem flatMap_probe {α : Type} {f : Stmt → List α} (t : Tracer) (kind : ProbeKind) (p : Place)
    (names : List String) (s : Tracing)
    (hprobe : ∀ site, f (Probe.stmt (Probe.call t.file site)) = []) :
    ((result (probe t kind p names) s).map Probe.stmt).toList.flatMap f = [] := by
  rcases result_probe t kind p names s with h | ⟨site, h⟩
  · rw [h]
    rfl
  · rw [h]
    exact List.flatMap_singleton f _ |>.trans (hprobe site)

/-! ### Patterns -/

mutual

theorem Pat.boundNames_instrument (t : Tracer) (q : Pat) (s : Tracing) :
    (result (q.instrument t) s).boundNames = q.boundNames := by
  cases q with
  | ident | elision | expr => rfl
  | array p items => exact Pat.boundNamesOf_instruments t items s
  | object p members => exact PatProperty.boundNamesOf_instruments t members s
  | rest p q => exact Pat.boundNames_instrument t q s
  | withDefault p q e => exact Pat.boundNames_instrument t q s

theorem Pat.boundNamesOf_instruments (t : Tracer) (qs : List Pat) (s : Tracing) :
    Pat.boundNamesOf (result (Pat.instruments t qs) s) = Pat.boundNamesOf qs := by
  cases qs with
  | nil => rfl
  | cons q r =>
    have hq := Pat.boundNames_instrument t q
    exact congr($(hq _) ++ $(Pat.boundNamesOf_instruments t r _))

theorem PatProperty.boundNames_instrument (t : Tracer) (p : PatProperty) (s : Tracing) :
    (result (p.instrument t) s).boundNames = p.boundNames := by
  cases p with
  | keyValue k q => exact Pat.boundNames_instrument t q _
  | shorthand => rfl
  | rest p q => exact Pat.boundNames_instrument t q s

theorem PatProperty.boundNamesOf_instruments (t : Tracer) (ps : List PatProperty) (s : Tracing) :
    PatProperty.boundNamesOf (result (PatProperty.instruments t ps) s) =
      PatProperty.boundNamesOf ps := by
  cases ps with
  | nil => rfl
  | cons p r =>
    have hp := PatProperty.boundNames_instrument t p
    exact congr($(hp _) ++ $(PatProperty.boundNamesOf_instruments t r _))

end

theorem Pat.boundNames?_instrument? (t : Tracer) (q : Option Pat) (s : Tracing) :
    (result (Pat.instrument? t q) s).elim [] Pat.boundNames = q.elim [] Pat.boundNames := by
  cases q with
  | none => rfl
  | some q => exact Pat.boundNames_instrument t q s

theorem Param.boundNamesOf_instruments (t : Tracer) (ps : List Param) (s : Tracing) :
    Param.boundNamesOf (result (Param.instruments t ps) s) = Param.boundNamesOf ps := by
  induction ps generalizing s with
  | nil => rfl
  | cons p r ih =>
    cases p with
    | mk p ds i q =>
      have hq := Pat.boundNames_instrument t q
      exact congr($(hq _) ++ $(ih _))

/-! ### Variables -/

theorem Declarator.boundNamesOf_instruments (t : Tracer) (ds : List Declarator) (s : Tracing) :
    Pat.boundNamesOf ((result (Declarator.instruments t ds) s).map Declarator.target) =
      Pat.boundNamesOf (ds.map Declarator.target) := by
  induction ds generalizing s with
  | nil => rfl
  | cons d r ih =>
    cases d with
    | mk p q e =>
      have hq := Pat.boundNames_instrument t q
      exact congr($(hq _) ++ $(ih _))

/-- A declaration declares the same names in the same way. -/
theorem VarDecl.names_instrument (t : Tracer) (d : VarDecl) (s : Tracing) :
    (result (d.instrument t) s).varNames = d.varNames ∧
      (result (d.instrument t) s).lexicalNames = d.lexicalNames := by
  cases d with
  | mk p kind b items =>
    have h := Declarator.boundNamesOf_instruments t items s
    cases kind with
    | var => exact ⟨h, rfl⟩
    | «let» | const => exact ⟨rfl, h⟩
    | «using» | awaitUsing => exact ⟨rfl, rfl⟩

theorem LoopHead.names_instrument (t : Tracer) (h : LoopHead) (s : Tracing) :
    (result (h.instrument t) s).varNames = h.varNames ∧
      (result (h.instrument t) s).lexicalNames = h.lexicalNames := by
  cases h with
  | none | pat | expr => exact ⟨rfl, rfl⟩
  | varDecl d => exact VarDecl.names_instrument t d s

theorem LoopHead.lexicalNames_instrument (t : Tracer) (h : LoopHead) (s : Tracing) :
    (result (h.instrument t) s).lexicalNames = h.lexicalNames := (LoopHead.names_instrument t h s).2

/-! ### Statements -/

theorem Stmt.lexicalNames_instrument (t : Tracer) (st : Stmt) (s : Tracing) :
    (result (st.instrument t) s).lexicalNames = st.lexicalNames := by
  cases st with
  | varDecl d => exact (VarDecl.names_instrument t d s).2
  | exportDecl p d =>
    cases d with
    | varDecl d => exact (VarDecl.names_instrument t d s).2
    | _ => rfl
  | _ => rfl

theorem Stmt.lexicalNamesOf_instruments (t : Tracer) (ss : List Stmt) (s : Tracing) :
    Stmt.lexicalNamesOf (result (Stmt.instruments t ss) s) = Stmt.lexicalNamesOf ss := by
  induction ss generalizing s with
  | nil => rfl
  | cons st r ih =>
    have hst := Stmt.lexicalNames_instrument t st
    exact flatMap_instruments_cons t st r s (fun _ => rfl) hst ih

theorem SwitchCase.lexicalNames_instrument (t : Tracer) (c : SwitchCase) (s : Tracing) :
    Stmt.lexicalNamesOf (result (c.instrument t) s).stmts = Stmt.lexicalNamesOf c.stmts := by
  cases c with
  | mk p e ss => exact Stmt.lexicalNamesOf_instruments t ss _

theorem SwitchCase.lexicalNamesOf_instruments (t : Tracer) (cs : List SwitchCase) (s : Tracing) :
    SwitchCase.lexicalNamesOf (result (SwitchCase.instruments t cs) s) =
      SwitchCase.lexicalNamesOf cs := by
  induction cs generalizing s with
  | nil => rfl
  | cons c r ih =>
    have hc := SwitchCase.lexicalNames_instrument t c
    exact congr($(hc _) ++ $(ih _))

mutual

theorem Stmt.varNames_instrument (t : Tracer) (st : Stmt) (s : Tracing) :
    (result (st.instrument t) s).varNames = st.varNames := by
  cases st with
  | block b => exact Block.varNames_instrument t b s
  | withObject p e st | labeled p l st | whileLoop p e st | doWhileLoop p e st | exportDecl p st =>
    exact Stmt.varNames_instrument t st _
  | ifElse p e yes no =>
    have hyes := Stmt.varNames_instrument t yes
    exact congr($(hyes _) ++ $(Stmt.varNames?_instrument? t no _))
  | switchOn p e cases => exact SwitchCase.varNamesOf_instruments t cases _
  | tryStmt p b c f =>
    have hb := Block.varNames_instrument t b
    have hc := Catch.varNames?_instrument? t c
    exact congr($(hb _) ++ $(hc _) ++ $(Block.varNames?_instrument? t f _))
  | forLoop p h test update st | forIn p h e st | forOf p a h e st =>
    have hh := fun s => (LoopHead.names_instrument t h s).1
    exact congr($(hh _) ++ $(Stmt.varNames_instrument t st _))
  | varDecl d => exact (VarDecl.names_instrument t d s).1
  | empty | debugger | returnStmt | breakTo | continueTo | throwStmt | func | classDecl | expr
  | importNames | exportNames | exportAll | exportDefault | exportDefaultFunc | exportDefaultClass
  | typed => rfl

theorem Stmt.varNames?_instrument? (t : Tracer) (st : Option Stmt) (s : Tracing) :
    Stmt.varNames? (result (Stmt.instrument? t st) s) = Stmt.varNames? st := by
  cases st with
  | none => rfl
  | some st => exact Stmt.varNames_instrument t st s

theorem Stmt.varNamesOf_instruments (t : Tracer) (ss : List Stmt) (s : Tracing) :
    Stmt.varNamesOf (result (Stmt.instruments t ss) s) = Stmt.varNamesOf ss := by
  cases ss with
  | nil => rfl
  | cons st r =>
    have hst := Stmt.varNames_instrument t st
    have hr := Stmt.varNamesOf_instruments t r
    rw [Stmt.varNamesOf_eq_flatMap, Stmt.varNamesOf_eq_flatMap]
    refine flatMap_instruments_cons t st r s (fun _ => rfl) hst fun s => ?_
    rw [← Stmt.varNamesOf_eq_flatMap, ← Stmt.varNamesOf_eq_flatMap, hr]

theorem Block.varNames_instrument (t : Tracer) (b : Block) (s : Tracing) :
    (result (b.instrument t) s).varNames = b.varNames := by
  cases b with
  | mk p ss => exact Stmt.varNamesOf_instruments t ss _

theorem Block.varNames?_instrument? (t : Tracer) (b : Option Block) (s : Tracing) :
    Block.varNames? (result (Block.instrument? t b) s) = Block.varNames? b := by
  cases b with
  | none => rfl
  | some b => exact Block.varNames_instrument t b s

theorem SwitchCase.varNamesOf_instruments (t : Tracer) (cs : List SwitchCase) (s : Tracing) :
    SwitchCase.varNamesOf (result (SwitchCase.instruments t cs) s) = SwitchCase.varNamesOf cs := by
  match cs with
  | [] => rfl
  | .mk p e ss :: r =>
    have hss := Stmt.varNamesOf_instruments t ss
    exact congr($(hss _) ++ $(SwitchCase.varNamesOf_instruments t r _))

theorem Catch.varNames?_instrument? (t : Tracer) (c : Option Catch) (s : Tracing) :
    Catch.varNames? (result (Catch.instrument? t c) s) = Catch.varNames? c := by
  match c with
  | none => rfl
  | some (.mk p q b) => exact Block.varNames_instrument t b _

end

/-- The probe at the start of a body declares nothing either. -/
theorem Block.varNames_entering (t : Tracer) (p : Place) (params : List String) (b : Block)
    (s : Tracing) : (result (entering t p params (b.instrument t)) s).varNames = b.varNames := by
  have hb := Block.varNames_instrument t b (probe t .entry p params s).2
  have hnew := @flatMap_probe _ Stmt.varNames t .entry p params s fun _ => rfl
  simp only [entering, result_bind]
  rw [← hb]
  cases result (b.instrument t) (probe t .entry p params s).2 with
  | mk q ss =>
    simp only [result_pure, Block.varNames, Stmt.varNamesOf_eq_flatMap]
    exact flatMap_insertAfterDirectives hnew ss

end StepTrace.Script
