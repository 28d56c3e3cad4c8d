import Mathlib.Data.List.Forall2
import StepTrace.Proofs.Script.Declared
import StepTrace.Proofs.Script.Parts

/-!
Where probes are put. In each list of statements one probe comes after each step and tells where the step was
read. The body of a function has one more, after its directives, and the value of an arrow function has one
before it; these read the parameters. Nothing else is added, at any depth.
-/
namespace StepTrace.Script

open Trace

/-! ### Steps -/

/-- Where a step was read: variables that are declared, or an expression that is no string. What `declare`
marks or `using` introduces is no step. -/
def Stmt.step? : Stmt → Place
  | .varDecl d => if d.isDeclare || d.kind = .using || d.kind = .awaitUsing then none else d.place
  | .exportDecl p (.varDecl _) => p
  | .expr p e => if e.isString then none else p
  | _ => none

theorem Expr.isString_instrument (t : Tracer) (e : Expr) (s : Tracing) :
    (result (e.instrument t) s).isString = e.isString := by
  cases e <;> rfl

/-- A statement is a step, with its place, with probes in it as well. -/
theorem Stmt.step?_instrument (t : Tracer) (st : Stmt) (s : Tracing) :
    (result (st.instrument t) s).step? = st.step? := by
  cases st with
  | varDecl d =>
    cases d with
    | mk p kind b items => rfl
  | exportDecl p d => cases d <;> rfl
  | expr p e => exact congr(if $(Expr.isString_instrument t e s) = true then none else p)
  | _ => rfl

/-- The same statement up to the probes in it. -/
structure Stmt.Kept (s s' : Stmt) : Prop where
  unprobe_eq : s'.unprobe = s.unprobe
  isDirective_eq : s'.isDirective = s.isDirective

theorem Stmt.kept_instrument (t : Tracer) (st : Stmt) (s : Tracing) :
    st.Kept (result (st.instrument t) s) := by
  refine ⟨Stmt.unprobe_instrument t st s, ?_⟩
  cases st with
  | expr p e => exact Expr.isString_instrument t e s
  | _ => rfl

/-- There is no place for a probe in a directive. -/
theorem Stmt.Kept.eq_of_isDirective {s s' : Stmt} (h : s.Kept s') (hs : s.isDirective = true) :
    s' = s := by
  have hself : ∀ {st : Stmt}, st.isDirective = true → st.unprobe = st := by
    intro st hst
    cases st with
    | expr p e =>
      cases e with
      | literal => rfl
      | _ => cases hst
    | _ => cases hst
  exact (hself (h.isDirective_eq.trans hs)).symm.trans (h.unprobe_eq.trans (hself hs))

/-- The second list has the statements of the first, and one probe after each step. -/
inductive Woven (t : Tracer) : List Stmt → List Stmt → Prop
  | nil : Woven t [] []
  | step {s s' : Stmt} {r r' : List Stmt} {span : Span} (names : List String)
      (hs : s.step? = some span) (hs' : s.Kept s') (hr : Woven t r r') :
      Woven t (s :: r)
        (s' :: Probe.stmt (Probe.call t.file ⟨.statement, t.position span.start, names⟩) :: r')
  | other {s s' : Stmt} {r r' : List Stmt} (hs : s.step? = none) (hs' : s.Kept s') (hr : Woven t r r') :
      Woven t (s :: r) (s' :: r')

theorem Stmt.not_isDirective_of_step? {s : Stmt} {span : Span} (h : s.step? = some span) :
    ¬s.isDirective = true := by
  intro hs
  cases s with
  | expr p e => cases (if_pos hs).symm.trans h
  | _ => cases hs

/-- The directives at the start stay, and a probe comes only after what follows them. -/
theorem Woven.directives {t : Tracer} {ss ss' : List Stmt} (h : Woven t ss ss') :
    ss'.takeWhile Stmt.isDirective = ss.takeWhile Stmt.isDirective ∧
      Woven t (ss.dropWhile Stmt.isDirective) (ss'.dropWhile Stmt.isDirective) := by
  induction h with
  | nil => exact ⟨rfl, .nil⟩
  | @step s s' r r' span names hs hs' hr ih =>
    have hd := Stmt.not_isDirective_of_step? hs
    have hd' := hs'.isDirective_eq.symm ▸ hd
    rw [List.takeWhile_cons_of_neg hd, List.takeWhile_cons_of_neg hd', List.dropWhile_cons_of_neg hd,
      List.dropWhile_cons_of_neg hd']
    exact ⟨rfl, .step names hs hs' hr⟩
  | @other s s' r r' hs hs' hr ih =>
    by_cases hd : s.isDirective = true
    · obtain rfl := hs'.eq_of_isDirective hd
      rw [List.takeWhile_cons_of_pos hd, List.takeWhile_cons_of_pos hd, List.dropWhile_cons_of_pos hd,
        List.dropWhile_cons_of_pos hd]
      exact ⟨congr(s' :: $(ih.1)), ih.2⟩
    · have hd' := hs'.isDirective_eq.symm ▸ hd
      rw [List.takeWhile_cons_of_neg hd, List.takeWhile_cons_of_neg hd', List.dropWhile_cons_of_neg hd,
        List.dropWhile_cons_of_neg hd']
      exact ⟨rfl, .other hs hs' hr⟩

/-- The second list starts with the directives of the first, has something new after them, and then the
other statements with their probes. -/
def WovenAfter (t : Tracer) (new ss ss' : List Stmt) : Prop :=
  ∃ rest, ss' = ss.takeWhile Stmt.isDirective ++ new ++ rest ∧
    Woven t (ss.dropWhile Stmt.isDirective) rest

theorem Woven.insertAfterDirectives {t : Tracer} {ss ss' : List Stmt} (h : Woven t ss ss')
    (new : List Stmt) : WovenAfter t new ss (Stmt.insertAfterDirectives new ss') :=
  ⟨_, congr($(h.directives.1) ++ new ++ _), h.directives.2⟩

/-- A statement declares what it declares, and then a probe is made if it is a step. -/
theorem exists_after_eq (t : Tracer) (st : Stmt) (s : Tracing) :
    ∃ s' : Tracing, s'.sites = s.sites ∧ after t st s = stmtProbe t st.step? s' := by
  cases st with
  | varDecl d =>
    refine ⟨(declareVars d s).2, rfl, ?_⟩
    cases hd : d.isDeclare || d.kind = .using || d.kind = .awaitUsing with
    | true =>
      simp only [after, Stmt.step?, hd, if_true]
      rfl
    | false =>
      simp only [after, Stmt.step?, hd, Bool.false_eq_true, if_false]
      rfl
  | exportDecl p d =>
    cases d with
    | varDecl d => exact ⟨(declareVars d s).2, rfl, rfl⟩
    | _ => exact ⟨s, rfl, rfl⟩
  | expr p e =>
    refine ⟨s, rfl, ?_⟩
    cases he : e.isString with
    | true =>
      simp only [after, Stmt.step?, he, if_true]
      rfl
    | false => simp only [after, Stmt.step?, he, Bool.false_eq_true, if_false]
  | _ => exact ⟨s, rfl, rfl⟩

theorem result_after_of_none {t : Tracer} {st : Stmt} (h : st.step? = none) (s : Tracing) :
    result (after t st) s = [] := by
  obtain ⟨s', -, heq⟩ := exists_after_eq t st s
  rw [result, heq, h]
  rfl

/-- After a step comes one probe, with the position of the step. -/
theorem result_after_of_some {t : Tracer} {st : Stmt} {span : Span} (h : st.step? = some span)
    (s : Tracing) : ∃ names, result (after t st) s =
      [Probe.stmt (Probe.call t.file ⟨.statement, t.position span.start, names⟩)] := by
  obtain ⟨s', -, heq⟩ := exists_after_eq t st s
  rw [result, heq, h]
  exact ⟨s'.scopes.visible, rfl⟩

theorem woven_instruments (t : Tracer) (ss : List Stmt) (s : Tracing) :
    Woven t ss (result (Stmt.instruments t ss) s) := by
  induction ss generalizing s with
  | nil => exact .nil
  | cons st r ih =>
    have hkept := Stmt.kept_instrument t st s
    have hstep := Stmt.step?_instrument t st s
    obtain ⟨s₁, s₂, h⟩ := result_instruments_cons t st r s
    rw [h]
    cases hst : st.step? with
    | none =>
      rw [result_after_of_none (hstep.trans hst)]
      exact .other hst hkept (ih s₂)
    | some span =>
      obtain ⟨names, hafter⟩ := result_after_of_some (hstep.trans hst) s₁
      rw [hafter]
      exact .step names hst hkept (ih s₂)

/-! ### Functions -/

/-- What the probe of a function tells, which stands at the start of a block and before another value. -/
def ArrowBody.probeKind : ArrowBody → ProbeKind
  | .block _ => .entry
  | .expr _ => .implicitReturn

/-- The site of the probe of a function. What was made up has none, and so has an accessor of an object
literal. -/
def Callable.site? (t : Tracer) (f : Callable) : Option ProbeSite :=
  if f.isProperty then none
  else f.place.map fun span => ⟨f.body.probeKind, t.position span.start, f.names⟩

/-- A body with the probe of its function, if there is one: after the directives of a block, and before another
value. -/
inductive ArrowBody.Entered (t : Tracer) (site : Option ProbeSite) : ArrowBody → ArrowBody → Prop
  | block {p : Place} {ss ss' : List Stmt}
      (h : WovenAfter t (site.map fun x => Probe.stmt (Probe.call t.file x)).toList ss ss') :
      Entered t site (.block (.mk p ss)) (.block (.mk p ss'))
  | expr {e e' : Expr} (h : e'.unprobe = e.unprobe) :
      Entered t site (.expr e)
        (.expr (site.elim e' fun x => Probe.before (Probe.call t.file x) e'))

/-- The same function with its probe. -/
structure Callable.Entered (t : Tracer) (f f' : Callable) : Prop where
  place_eq : f'.place = f.place
  isProperty_eq : f'.isProperty = f.isProperty
  names_eq : f'.names = f.names
  body : ArrowBody.Entered t (f.site? t) f.body f'.body

/-! ### Parts -/

/-- The same part with its probes. -/
inductive Part.Probed (t : Tracer) : Part → Part → Prop
  | list {ss ss' : List Stmt} (h : Woven t ss ss') : Probed t (.list ss) (.list ss')
  | callable {f f' : Callable} (h : f.Entered t f') : Probed t (.callable f) (.callable f')
  | alone (slot : Slot) {s s' : Stmt} (h : s'.unprobe = s.unprobe) :
      Probed t (.alone slot s) (.alone slot s')

/-- Part by part the same, with probes. -/
def AreProbed (t : Tracer) (parts parts' : List Part) : Prop := List.Forall₂ (Part.Probed t) parts parts'

namespace AreProbed

variable {t : Tracer}

theorem nil : AreProbed t [] [] := List.Forall₂.nil

theorem cons {x y : Part} {a b : List Part} (h : x.Probed t y) (hr : AreProbed t a b) :
    AreProbed t (x :: a) (y :: b) := List.Forall₂.cons h hr

theorem append {a a' b b' : List Part} (h : AreProbed t a a') (h' : AreProbed t b b') :
    AreProbed t (a ++ b) (a' ++ b') := List.rel_append h h'

end AreProbed

/-- A block with probes after its steps and in them. -/
structure Block.Probed (t : Tracer) (b b' : Block) : Prop where
  place_eq : b'.place = b.place
  woven : Woven t b.stmts b'.stmts
  inner : AreProbed t b.inner b'.inner

def Part.site? (t : Tracer) : Part → Option ProbeSite
  | .callable f => f.site? t
  | .list _ | .alone .. => none

/-- The sites of functions so far. -/
def Tracing.entries (s : Tracing) : List ProbeSite := s.sites.filter (·.kind ≠ .statement)

/-! ### Probes have no parts -/

theorem partsOf_getters (names : List String) : Property.partsOf (names.map Probe.getter) = [] := by
  induction names with
  | nil => rfl
  | cons name r ih => exact ih

theorem parts_call (file : String) (site : ProbeSite) : (Probe.call file site).parts = [] := by
  have hgetters : Property.partsOf (site.names.map Probe.getter) ++ [] = [] := by
    rw [partsOf_getters, List.append_nil]
  exact hgetters

theorem parts_before (file : String) (site : ProbeSite) (e : Expr) :
    (Probe.before (Probe.call file site) e).parts = e.parts := by
  have hitems : (Probe.call file site).parts ++ (e.parts ++ []) = e.parts := by
    rw [parts_call, List.nil_append, List.append_nil]
  exact hitems

theorem partsOf_after (t : Tracer) (st : Stmt) (s : Tracing) :
    Stmt.partsOf (result (after t st) s) = [] := by
  rw [Stmt.partsOf_eq_flatMap]
  refine List.flatMap_eq_nil_iff.2 fun new hnew => ?_
  obtain ⟨site, rfl⟩ := exists_of_mem_after hnew
  exact parts_call t.file site

/-- Neither has what is put after the directives of a body. -/
theorem partsOf_insertAfterDirectives (t : Tracer) (site : Option ProbeSite) (ss : List Stmt) :
    Stmt.partsOf (Stmt.insertAfterDirectives (site.map fun x => Probe.stmt (Probe.call t.file x)).toList ss) =
      Stmt.partsOf ss := by
  rw [Stmt.partsOf_eq_flatMap, Stmt.partsOf_eq_flatMap]
  refine flatMap_insertAfterDirectives ?_ ss
  cases site with
  | none => rfl
  | some x => exact (List.flatMap_singleton Stmt.parts _).trans (parts_call t.file x)

/-! ### What a traversal notes and gives -/

namespace Trace

/-- From every state a traversal notes the sites of the functions among some parts, in their order, and else
only sites of statements, and gives what `Q` tells. -/
def Marks {α : Type} (t : Tracer) (parts : List Part) (m : Trace α) (Q : α → Prop) : Prop :=
  ∀ s, (m s).2.entries = (parts.filterMap (Part.site? t)).reverse ++ s.entries ∧ Q (result m s)

namespace Marks

variable {α β : Type} {t : Tracer} {a b : List Part} {m : Trace α} {k : α → Trace β} {Q : α → Prop}
  {R : β → Prop}

theorem pure {x : α} (h : Q x) : Marks t [] (pure x) Q := fun _ => ⟨rfl, h⟩

theorem bind (h : Marks t a m Q) (hk : ∀ x, Q x → Marks t b (k x) R) : Marks t (a ++ b) (m >>= k) R := by
  intro s
  obtain ⟨hm, hQ⟩ := h s
  obtain ⟨hk, hR⟩ := hk _ hQ (m s).2
  refine ⟨?_, hR⟩
  calc ((m >>= k) s).2.entries = (b.filterMap (Part.site? t)).reverse ++ (m s).2.entries := hk
    _ = ((a ++ b).filterMap (Part.site? t)).reverse ++ s.entries := by
      rw [hm, List.filterMap_append, List.reverse_append, List.append_assoc]

theorem map {f : α → β} (h : Marks t a m Q) (hf : ∀ x, Q x → R (f x)) :
    Marks t a (m >>= fun x => Pure.pure (f x)) R := fun s => ⟨(h s).1, hf _ (h s).2⟩

theorem imp {Q' : α → Prop} (h : Marks t a m Q) (hQ : ∀ x, Q x → Q' x) : Marks t a m Q' :=
  fun s => ⟨(h s).1, hQ _ (h s).2⟩

/-- What is always given is given here too. -/
theorem and {P : α → Prop} (h : Marks t a m Q) (hP : ∀ s, P (result m s)) :
    Marks t a m fun x => Q x ∧ P x := fun s => ⟨(h s).1, (h s).2, hP s⟩

/-- A part without a site notes nothing. -/
theorem skip {x : Part} (hx : x.site? t = none) (h : Marks t a m Q) : Marks t (x :: a) m Q := by
  intro s
  rw [List.filterMap_cons_none hx]
  exact h s

theorem inScope (enter : ScopeStack → ScopeStack) (h : Marks t a m Q) : Marks t a (inScope enter m) Q :=
  fun s => h { s with scopes := enter s.scopes }

theorem inBlock (h : Marks t a m Q) : Marks t a (inBlock m) Q := .inScope (·.push .block) h

theorem inFunction {names : List String} (h : Marks t a m Q) : Marks t a (inFunction names m) Q :=
  .inScope (·.pushFunction names) h

/-- Declaring variables notes nothing. -/
theorem afterHead (head : LoopHead) (h : Marks t a m Q) : Marks t a (declareHead head >>= fun _ => m) Q := by
  intro s
  have hentries : (declareHead head s).2.entries = s.entries := by
    cases head <;> rfl
  have hm := h (declareHead head s).2
  rw [hentries] at hm
  exact hm

end Marks

/-- The probe after a statement is no probe of a function. -/
theorem entries_after (t : Tracer) (st : Stmt) (s : Tracing) : (after t st s).2.entries = s.entries := by
  obtain ⟨s', hsites, heq⟩ := exists_after_eq t st s
  have hentries : s'.entries = s.entries := congr($(hsites).filter (·.kind ≠ .statement))
  rw [heq, ← hentries]
  cases st.step? <;> rfl

theorem marks_after (t : Tracer) (st : Stmt) :
    Marks t [] (after t st) fun new => Stmt.partsOf new = [] := fun s =>
  ⟨entries_after t st s, partsOf_after t st s⟩

/-! ### Blocks and bodies -/

/-- The site of a function is noted when its probe is made. -/
theorem marks_probe (t : Tracer) (p : Place) (names : List String) (body : ArrowBody) :
    Marks t [.callable ⟨p, false, names, body⟩] (probe t body.probeKind p names) fun call =>
      call = (Callable.site? t ⟨p, false, names, body⟩).map (Probe.call t.file) := by
  intro s
  cases p with
  | none => exact ⟨rfl, rfl⟩
  | some span => cases body <;> exact ⟨rfl, rfl⟩

theorem entering_eq (t : Tracer) (p : Place) (names : List String) (m : Trace Block) :
    entering t p names m = (probe t .entry p names >>= fun call => m >>= fun b =>
      Pure.pure (.mk b.place (Stmt.insertAfterDirectives (call.map Probe.stmt).toList b.stmts))) := by
  refine congr(probe t .entry p names >>= $(funext fun call => ?_))
  exact congr(m >>= $(funext fun b => by cases b; rfl))

namespace Marks

variable {t : Tracer} {m : Trace Block} {b : Block}

/-- A block that is no body of a function. -/
theorem list (h : Marks t b.inner m (b.Probed t)) :
    Marks t b.parts m fun b' => AreProbed t b.parts b'.parts := by
  obtain ⟨p, ss⟩ := b
  refine (h.skip (x := .list ss) rfl).imp fun b' hb => ?_
  obtain ⟨p', ss'⟩ := b'
  exact .cons (.list hb.woven) hb.inner

/-- The body of a function with the probe at its start. -/
theorem entering (p : Place) (names : List String) (h : Marks t b.inner m (b.Probed t)) :
    Marks t (.callable ⟨p, false, names, .block b⟩ :: b.inner) (entering t p names m) fun b' =>
      AreProbed t (.callable ⟨p, false, names, .block b⟩ :: b.inner)
        (.callable ⟨p, false, names, .block b'⟩ :: b'.inner) := by
  rw [entering_eq]
  refine (marks_probe t p names (.block b)).bind fun call hcall => h.map fun b' hb => ?_
  obtain ⟨q, ss⟩ := b
  obtain ⟨q', ss'⟩ := b'
  obtain rfl : q' = q := hb.place_eq
  have hinner := partsOf_insertAfterDirectives t
    (Callable.site? t ⟨p, false, names, .block (.mk q' ss)⟩) ss'
  rw [hcall, Option.map_map]
  refine .cons (.callable ⟨rfl, rfl, rfl, .block (hb.woven.insertAfterDirectives _)⟩) ?_
  exact hinner.symm.subst (motive := AreProbed t (Stmt.partsOf ss)) hb.inner

/-- The value of an arrow function with the probe before it. -/
theorem returning (p : Place) (names : List String) {e : Expr} {m : Trace Expr}
    (h : Marks t e.parts m fun e' => AreProbed t e.parts e'.parts)
    (hsame : ∀ s, (result m s).unprobe = e.unprobe) :
    Marks t (.callable ⟨p, false, names, .expr e⟩ :: e.parts) (returning t p names m) fun e' =>
      AreProbed t (.callable ⟨p, false, names, .expr e⟩ :: e.parts)
        (.callable ⟨p, false, names, .expr e'⟩ :: e'.parts) := by
  have he := h.and (P := fun e' => e'.unprobe = e.unprobe) hsame
  refine (marks_probe t p names (.expr e)).bind fun call hcall => he.map fun e' ⟨hparts, hsame⟩ => ?_
  have hbody := fun site => @ArrowBody.Entered.expr t site e e' hsame
  subst hcall
  cases p with
  | none => exact .cons (.callable ⟨rfl, rfl, rfl, hbody _⟩) hparts
  | some span =>
    refine .cons (.callable ⟨rfl, rfl, rfl, hbody _⟩) ?_
    exact (parts_before t.file _ e').symm ▸ hparts

/-- An accessor of an object literal, whose body has no probe at its start. -/
theorem accessor (p : Place) (names : List String) (h : Marks t b.inner m (b.Probed t)) :
    Marks t (.callable ⟨p, true, names, .block b⟩ :: b.inner) m fun b' =>
      AreProbed t (.callable ⟨p, true, names, .block b⟩ :: b.inner)
        (.callable ⟨p, true, names, .block b'⟩ :: b'.inner) := by
  refine (h.skip (x := .callable ⟨p, true, names, .block b⟩) rfl).imp fun b' hb => ?_
  obtain ⟨q, ss⟩ := b
  obtain ⟨q', ss'⟩ := b'
  obtain rfl : q' = q := hb.place_eq
  have hnone : Stmt.insertAfterDirectives [] ss' = ss' := by
    rw [Stmt.insertAfterDirectives, List.append_nil, List.takeWhile_append_dropWhile]
  have hbody : WovenAfter t [] ss ss' := hnone ▸ hb.woven.insertAfterDirectives []
  exact .cons (.callable ⟨rfl, rfl, rfl, .block hbody⟩) hb.inner

/-- A getter by which a probe reads a variable is none of the functions. -/
theorem getter (p : Place) (h : Marks t b.inner m (b.Probed t))
    (hname : ∀ s, (result m s).returnsName = b.returnsName) :
    Marks t ((b.getterPart? p).toList ++ b.inner) m fun b' =>
      AreProbed t ((b.getterPart? p).toList ++ b.inner) ((b'.getterPart? p).toList ++ b'.inner) := by
  by_cases hp : p = none ∧ b.returnsName = true
  · have hnone : b.getterPart? p = none := if_pos hp
    rw [hnone]
    refine (h.and (P := fun b' => b'.returnsName = b.returnsName) hname).imp fun b' ⟨hb, hb'⟩ => ?_
    have hnone' : b'.getterPart? p = none := if_pos (hb'.symm ▸ hp)
    rw [hnone']
    exact hb.inner
  · have hsome : b.getterPart? p = some (.callable ⟨p, true, [], .block b⟩) := if_neg hp
    rw [hsome]
    refine ((h.accessor p []).and (P := fun b' => b'.returnsName = b.returnsName) hname).imp
      fun b' ⟨hb, hb'⟩ => ?_
    have hsome' : b'.getterPart? p = some (.callable ⟨p, true, [], .block b'⟩) :=
      if_neg (hb'.symm ▸ hp)
    rw [hsome']
    exact hb

/-- A statement that stands alone. -/
theorem alone {st : Stmt} (slot : Slot)
    (h : Marks t st.parts (st.instrument t) fun st' => AreProbed t st.parts st'.parts) :
    Marks t (.alone slot st :: st.parts) (st.instrument t) fun st' =>
      AreProbed t (.alone slot st :: st.parts) (.alone slot st' :: st'.parts) := by
  have hsame := Stmt.unprobe_instrument t st
  refine ((h.and (P := fun st' => st'.unprobe = st.unprobe) hsame).skip (x := .alone slot st) rfl).imp
    fun st' ⟨hst, hst'⟩ => ?_
  exact .cons (.alone slot hst') hst

end Marks

end Trace

theorem Stmt.returnsName_instrument (t : Tracer) (st : Stmt) (s : Tracing) :
    (result (st.instrument t) s).returnsName = st.returnsName := by
  cases st with
  | returnStmt p e =>
    cases p with
    | some span => rfl
    | none =>
      cases e with
      | none => rfl
      | some e => cases e <;> rfl
  | _ => rfl

theorem Stmt.step?_of_returnsName {st : Stmt} (h : st.returnsName = true) : st.step? = none := by
  cases st with
  | returnStmt => rfl
  | _ => cases h

theorem Block.returnsName_mk_instruments (t : Tracer) (p : Place) (ss : List Stmt) (s : Tracing) :
    (Block.mk p (result (Stmt.instruments t ss) s)).returnsName = (Block.mk p ss).returnsName := by
  cases ss with
  | nil => rfl
  | cons st r =>
    have hst := Stmt.returnsName_instrument t st s
    have hstep := Stmt.step?_instrument t st s
    obtain ⟨s₁, s₂, h⟩ := result_instruments_cons t st r s
    rw [h]
    simp only [List.cons_append, Block.returnsName, hst]
    cases hname : st.returnsName with
    | false => rfl
    | true =>
      rw [result_after_of_none (hstep.trans (Stmt.step?_of_returnsName hname))]
      cases r <;> rfl

theorem Block.returnsName_instrument (t : Tracer) (b : Block) (s : Tracing) :
    (result (b.instrument t) s).returnsName = b.returnsName := by
  cases b with
  | mk p ss => exact Block.returnsName_mk_instruments t p ss _

/-! ### The parts of a program with probes

A body is traversed with the names that are read from its parameters, which are the same with probes in
them. -/

theorem Pat.parameterNames_instruments (t : Tracer) (qs : List Pat) (s : Tracing) :
    Pat.parameterNames (result (Pat.instruments t qs) s) = Pat.parameterNames qs := by
  rw [← Pat.boundNamesOf_eq, ← Pat.boundNamesOf_eq, Pat.boundNamesOf_instruments]

theorem Pat.parameterNames_instrument (t : Tracer) (q : Pat) (s : Tracing) :
    Pat.parameterNames [result (q.instrument t) s] = Pat.parameterNames [q] := by
  rw [← Pat.boundNamesOf_eq, ← Pat.boundNamesOf_eq]
  exact congr($(Pat.boundNames_instrument t q s) ++ [])

theorem Param.parameterNames_instruments (t : Tracer) (ps : List Param) (s : Tracing) :
    Pat.parameterNames ((result (Param.instruments t ps) s).map Param.pat) =
      Pat.parameterNames (ps.map Param.pat) := by
  rw [← Pat.boundNamesOf_eq, ← Pat.boundNamesOf_eq]
  exact Param.boundNamesOf_instruments t ps s

mutual

theorem Expr.marks_instrument (t : Tracer) (e : Expr) :
    Marks t e.parts (e.instrument t) fun e' => AreProbed t e.parts e'.parts := by
  cases e with
  | template p chunks parts => exact (Expr.marks_instruments t parts).map fun _ h => h
  | tagged p tag chunks parts =>
    refine (Expr.marks_instrument t tag).bind fun _ htag => ?_
    exact (Expr.marks_instruments t parts).map fun _ hparts => htag.append hparts
  | array p items | sequence p items => exact (Expr.marks_instruments t items).map fun _ h => h
  | object p members => exact (Property.marks_instruments t members).map fun _ h => h
  | func name f => exact (Function.marks_instrument t f).map fun _ h => h
  | classExpr name c => exact (Class.marks_instrument t c).map fun _ h => h
  | arrow p a ps b =>
    have hps := (Pat.marks_instruments t ps).and
      (P := fun ps' => Pat.parameterNames ps' = Pat.parameterNames ps)
      (Pat.parameterNames_instruments t ps)
    refine Marks.inFunction (hps.bind fun ps' ⟨hps, hnames⟩ => ?_)
    refine (ArrowBody.marks_instrument t p (Pat.boundNamesOf_eq ps) b).map fun b' hb => ?_
    exact hps.append (hnames.symm ▸ hb)
  | unary p op e | await p e | paren p e | spread p e | ascribed p how e | member p l e name
  | update p op pre e => exact (Expr.marks_instrument t e).map fun _ h => h
  | binary p op l r =>
    refine (Expr.marks_instrument t l).bind fun _ hl => ?_
    exact (Expr.marks_instrument t r).map fun _ hr => hl.append hr
  | assign p op q e =>
    refine (Pat.marks_instrument t q).bind fun _ hq => ?_
    exact (Expr.marks_instrument t e).map fun _ he => hq.append he
  | cond p a b c =>
    refine (Expr.marks_instrument t a).bind fun _ ha => ?_
    refine (Expr.marks_instrument t b).bind fun _ hb => ?_
    exact (Expr.marks_instrument t c).map fun _ hc => ha.append (hb.append hc)
  | index p l e k =>
    refine (Expr.marks_instrument t e).bind fun _ he => ?_
    exact (Expr.marks_instrument t k).map fun _ hk => he.append hk
  | call p l e args | construct p e hasArgs args =>
    refine (Expr.marks_instrument t e).bind fun _ he => ?_
    exact (Expr.marks_instruments t args).map fun _ hargs => he.append hargs
  | yield p d e => exact (Expr.marks_instrument? t e).map fun _ h => h
  | element p name c as_ cs =>
    refine (JsxPart.marks_instruments t as_).bind fun _ has => ?_
    exact (JsxPart.marks_instruments t cs).map fun _ hcs => has.append hcs
  | this | superRef | importRef | ident | literal | metaProperty | elision => exact .pure .nil

theorem Expr.marks_instruments (t : Tracer) (es : List Expr) :
    Marks t (Expr.partsOf es) (Expr.instruments t es) fun es' =>
      AreProbed t (Expr.partsOf es) (Expr.partsOf es') := by
  cases es with
  | nil => exact .pure .nil
  | cons e r =>
    refine (Expr.marks_instrument t e).bind fun _ he => ?_
    exact (Expr.marks_instruments t r).map fun _ hr => he.append hr

theorem Expr.marks_instrument? (t : Tracer) (e : Option Expr) :
    Marks t (Expr.parts? e) (Expr.instrument? t e) fun e' =>
      AreProbed t (Expr.parts? e) (Expr.parts? e') := by
  cases e with
  | none => exact .pure .nil
  | some e => exact (Expr.marks_instrument t e).map fun _ h => h

theorem JsxPart.marks_instrument (t : Tracer) (p : JsxPart) :
    Marks t p.parts (p.instrument t) fun p' => AreProbed t p.parts p'.parts := by
  cases p with
  | «attribute» name value =>
    cases value with
    | none => exact .pure .nil
    | some v => exact (JsxPart.marks_instrument t v).map fun _ h => h
  | text value => exact .pure .nil
  | spread e | child e => exact (Expr.marks_instrument t e).map fun _ h => h
  | container e => exact (Expr.marks_instrument? t e).map fun _ h => h

theorem JsxPart.marks_instruments (t : Tracer) (ps : List JsxPart) :
    Marks t (JsxPart.partsOf ps) (JsxPart.instruments t ps) fun ps' =>
      AreProbed t (JsxPart.partsOf ps) (JsxPart.partsOf ps') := by
  cases ps with
  | nil => exact .pure .nil
  | cons p r =>
    refine (JsxPart.marks_instrument t p).bind fun _ hp => ?_
    exact (JsxPart.marks_instruments t r).map fun _ hr => hp.append hr

theorem Property.marks_instrument (t : Tracer) (p : Property) :
    Marks t p.parts (p.instrument t) fun p' => AreProbed t p.parts p'.parts := by
  cases p with
  | shorthand name e => exact (Expr.marks_instrument? t e).map fun _ h => h
  | keyValue k e =>
    refine (Key.marks_instrument t k).bind fun _ hk => ?_
    exact (Expr.marks_instrument t e).map fun _ he => hk.append he
  | method k f =>
    refine (Key.marks_instrument t k).bind fun _ hk => ?_
    exact (Function.marks_instrument t f).map fun _ hf => hk.append hf
  | getter p k b =>
    have hb := (Block.marks_instrument t b).getter p (Block.returnsName_instrument t b)
    refine Marks.inFunction ((Key.marks_instrument t k).bind fun _ hk => ?_)
    exact hb.map fun _ hb => hk.append hb
  | setter p k q b =>
    have hq := (Pat.marks_instrument t q).and
      (P := fun q' => Pat.parameterNames [q'] = Pat.parameterNames [q])
      (Pat.parameterNames_instrument t q)
    have hb := (Block.marks_instrument t b).accessor p (Pat.parameterNames [q])
    refine Marks.inFunction ((Key.marks_instrument t k).bind fun _ hk => ?_)
    refine hq.bind fun q' ⟨hq, hnames⟩ => hb.map fun b' hb => ?_
    exact hk.append (hq.append (hnames.symm ▸ hb))
  | spread p e => exact (Expr.marks_instrument t e).map fun _ h => h

theorem Property.marks_instruments (t : Tracer) (ps : List Property) :
    Marks t (Property.partsOf ps) (Property.instruments t ps) fun ps' =>
      AreProbed t (Property.partsOf ps) (Property.partsOf ps') := by
  cases ps with
  | nil => exact .pure .nil
  | cons p r =>
    refine (Property.marks_instrument t p).bind fun _ hp => ?_
    exact (Property.marks_instruments t r).map fun _ hr => hp.append hr

theorem Key.marks_instrument (t : Tracer) (k : Key) :
    Marks t k.parts (k.instrument t) fun k' => AreProbed t k.parts k'.parts := by
  cases k with
  | computed p e => exact (Expr.marks_instrument t e).map fun _ h => h
  | name | literal => exact .pure .nil

theorem Pat.marks_instrument (t : Tracer) (q : Pat) :
    Marks t q.parts (q.instrument t) fun q' => AreProbed t q.parts q'.parts := by
  cases q with
  | ident | elision => exact .pure .nil
  | array p items => exact (Pat.marks_instruments t items).map fun _ h => h
  | object p members => exact (PatProperty.marks_instruments t members).map fun _ h => h
  | rest p q => exact (Pat.marks_instrument t q).map fun _ h => h
  | withDefault p q e =>
    refine (Pat.marks_instrument t q).bind fun _ hq => ?_
    exact (Expr.marks_instrument t e).map fun _ he => hq.append he
  | expr e => exact (Expr.marks_instrument t e).map fun _ h => h

theorem Pat.marks_instruments (t : Tracer) (qs : List Pat) :
    Marks t (Pat.partsOf qs) (Pat.instruments t qs) fun qs' =>
      AreProbed t (Pat.partsOf qs) (Pat.partsOf qs') := by
  cases qs with
  | nil => exact .pure .nil
  | cons q r =>
    refine (Pat.marks_instrument t q).bind fun _ hq => ?_
    exact (Pat.marks_instruments t r).map fun _ hr => hq.append hr

theorem Pat.marks_instrument? (t : Tracer) (q : Option Pat) :
    Marks t (Pat.parts? q) (Pat.instrument? t q) fun q' => AreProbed t (Pat.parts? q) (Pat.parts? q') := by
  cases q with
  | none => exact .pure .nil
  | some q => exact (Pat.marks_instrument t q).map fun _ h => h

theorem PatProperty.marks_instrument (t : Tracer) (p : PatProperty) :
    Marks t p.parts (p.instrument t) fun p' => AreProbed t p.parts p'.parts := by
  cases p with
  | keyValue k q =>
    refine (Key.marks_instrument t k).bind fun _ hk => ?_
    exact (Pat.marks_instrument t q).map fun _ hq => hk.append hq
  | shorthand p name e => exact (Expr.marks_instrument? t e).map fun _ h => h
  | rest p q => exact (Pat.marks_instrument t q).map fun _ h => h

theorem PatProperty.marks_instruments (t : Tracer) (ps : List PatProperty) :
    Marks t (PatProperty.partsOf ps) (PatProperty.instruments t ps) fun ps' =>
      AreProbed t (PatProperty.partsOf ps) (PatProperty.partsOf ps') := by
  cases ps with
  | nil => exact .pure .nil
  | cons p r =>
    refine (PatProperty.marks_instrument t p).bind fun _ hp => ?_
    exact (PatProperty.marks_instruments t r).map fun _ hr => hp.append hr

theorem Function.marks_instrument (t : Tracer) (f : Function) :
    Marks t f.parts (f.instrument t) fun f' => AreProbed t f.parts f'.parts := by
  cases f with
  | mk p a g ds ps b =>
    have hps := (Param.marks_instruments t ps).and
      (P := fun ps' => Pat.parameterNames (ps'.map Param.pat) = Pat.parameterNames (ps.map Param.pat))
      (Param.parameterNames_instruments t ps)
    have hread := Pat.boundNamesOf_eq (ps.map Param.pat)
    refine Marks.inFunction ((Expr.marks_instruments t ds).bind fun _ hds => ?_)
    refine hps.bind fun ps' ⟨hps, hnames⟩ => ?_
    refine (Block.marks_instrumentBody? t p hread b).map fun b' hb => ?_
    exact hds.append (hps.append (hnames.symm ▸ hb))

theorem Block.marks_instrumentBody? (t : Tracer) (p : Place) {names read : List String}
    (hread : read = names) (b : Option Block) :
    Marks t (Block.bodyParts? p names b) (Block.instrumentBody? t p read b) fun b' =>
      AreProbed t (Block.bodyParts? p names b) (Block.bodyParts? p names b') := by
  subst hread
  cases b with
  | none => exact .pure .nil
  | some b => exact ((Block.marks_instrument t b).entering p _).map fun _ h => h

theorem Param.marks_instrument (t : Tracer) (p : Param) :
    Marks t p.parts (p.instrument t) fun p' => AreProbed t p.parts p'.parts := by
  cases p with
  | mk p ds i q =>
    refine (Expr.marks_instruments t ds).bind fun _ hds => ?_
    exact (Pat.marks_instrument t q).map fun _ hq => hds.append hq

theorem Param.marks_instruments (t : Tracer) (ps : List Param) :
    Marks t (Param.partsOf ps) (Param.instruments t ps) fun ps' =>
      AreProbed t (Param.partsOf ps) (Param.partsOf ps') := by
  cases ps with
  | nil => exact .pure .nil
  | cons p r =>
    refine (Param.marks_instrument t p).bind fun _ hp => ?_
    exact (Param.marks_instruments t r).map fun _ hr => hp.append hr

theorem ArrowBody.marks_instrument (t : Tracer) (p : Place) {names read : List String}
    (hread : read = names) (b : ArrowBody) :
    Marks t (b.parts p names) (b.instrument t p read) fun b' =>
      AreProbed t (b.parts p names) (b'.parts p names) := by
  subst hread
  cases b with
  | block b => exact ((Block.marks_instrument t b).entering p _).map fun _ h => h
  | expr e =>
    have he := (Expr.marks_instrument t e).returning p read (Expr.unprobe_instrument t e)
    exact he.map fun _ h => h

/-- The statements of a block; the block itself is a part unless it is a body. -/
theorem Block.marks_instrument (t : Tracer) (b : Block) :
    Marks t b.inner (b.instrument t) (b.Probed t) := by
  cases b with
  | mk p ss =>
    have hss := (Stmt.marks_instruments t ss).and (P := Woven t ss) (woven_instruments t ss)
    exact Marks.inBlock (hss.map fun ss' ⟨hinner, hwoven⟩ => ⟨rfl, hwoven, hinner⟩)

theorem Block.marks_instrument? (t : Tracer) (b : Option Block) :
    Marks t (Block.parts? b) (Block.instrument? t b) fun b' =>
      AreProbed t (Block.parts? b) (Block.parts? b') := by
  cases b with
  | none => exact .pure .nil
  | some b => exact (Block.marks_instrument t b).list.map fun _ h => h

theorem Class.marks_instrument (t : Tracer) (c : Class) :
    Marks t c.parts (c.instrument t) fun c' => AreProbed t c.parts c'.parts := by
  cases c with
  | mk p ds members parent =>
    refine (Expr.marks_instruments t ds).bind fun _ hds => ?_
    refine (ClassMember.marks_instruments t members).bind fun _ hmembers => ?_
    exact (Expr.marks_instrument? t parent).map fun _ hparent => hds.append (hmembers.append hparent)

theorem ClassMember.marks_instrument (t : Tracer) (m : ClassMember) :
    Marks t m.parts (m.instrument t) fun m' => AreProbed t m.parts m'.parts := by
  cases m with
  | ctor p k ps b =>
    have hps := (Param.marks_instruments t ps).and
      (P := fun ps' => Pat.parameterNames (ps'.map Param.pat) = Pat.parameterNames (ps.map Param.pat))
      (Param.parameterNames_instruments t ps)
    have hread := Pat.boundNamesOf_eq (ps.map Param.pat)
    refine Marks.inFunction (hps.bind fun ps' ⟨hps, hnames⟩ => ?_)
    refine (Block.marks_instrumentBody? t p hread b).map fun b' hb => ?_
    exact hps.append (hnames.symm ▸ hb)
  | method p k kind st e f =>
    refine (Key.marks_instrument t k).bind fun _ hk => ?_
    exact (Function.marks_instrument t f).map fun _ hf => hk.append hf
  | property p k st e a v ds =>
    refine (Key.marks_instrument t k).bind fun _ hk => ?_
    refine (Expr.marks_instrument? t v).bind fun _ hv => ?_
    exact (Expr.marks_instruments t ds).map fun _ hds => hk.append (hv.append hds)
  | staticBlock p b => exact (Block.marks_instrument t b).list.map fun _ h => h
  | empty p => exact .pure .nil

theorem ClassMember.marks_instruments (t : Tracer) (ms : List ClassMember) :
    Marks t (ClassMember.partsOf ms) (ClassMember.instruments t ms) fun ms' =>
      AreProbed t (ClassMember.partsOf ms) (ClassMember.partsOf ms') := by
  cases ms with
  | nil => exact .pure .nil
  | cons m r =>
    refine (ClassMember.marks_instrument t m).bind fun _ hm => ?_
    exact (ClassMember.marks_instruments t r).map fun _ hr => hm.append hr

theorem Stmt.marks_instrument (t : Tracer) (st : Stmt) :
    Marks t st.parts (st.instrument t) fun st' => AreProbed t st.parts st'.parts := by
  cases st with
  | block b => exact (Block.marks_instrument t b).list.map fun _ h => h
  | withObject p e st | whileLoop p e st | doWhileLoop p e st =>
    refine (Expr.marks_instrument t e).bind fun _ he => ?_
    exact ((Stmt.marks_instrument t st).alone .body).map fun _ hst => he.append hst
  | returnStmt p e => exact (Expr.marks_instrument? t e).map fun _ h => h
  | labeled p l st => exact ((Stmt.marks_instrument t st).alone .label).map fun _ h => h
  | ifElse p e yes no =>
    refine (Expr.marks_instrument t e).bind fun _ he => ?_
    refine ((Stmt.marks_instrument t yes).alone .body).bind fun _ hyes => ?_
    exact (Stmt.marks_instrument? t no).map fun _ hno => he.append (hyes.append hno)
  | switchOn p e cases =>
    refine (Expr.marks_instrument t e).bind fun _ he => ?_
    exact (SwitchCase.marks_instruments t cases).inBlock.map fun _ hcases => he.append hcases
  | throwStmt p e | expr p e | exportDefault p e => exact (Expr.marks_instrument t e).map fun _ h => h
  | tryStmt p b c f =>
    refine (Block.marks_instrument t b).list.bind fun _ hb => ?_
    refine (Catch.marks_instrument? t c).bind fun _ hc => ?_
    exact (Block.marks_instrument? t f).map fun _ hf => hb.append (hc.append hf)
  | forLoop p h test update st =>
    refine Marks.inBlock (.afterHead h ?_)
    refine (LoopHead.marks_instrument t h).bind fun _ hh => ?_
    refine (Expr.marks_instrument? t test).bind fun _ htest => ?_
    refine (Expr.marks_instrument? t update).bind fun _ hupdate => ?_
    refine ((Stmt.marks_instrument t st).alone .body).map fun _ hst => ?_
    exact hh.append (htest.append (hupdate.append hst))
  | forIn p h e st | forOf p a h e st =>
    refine Marks.inBlock (.afterHead h ?_)
    refine (LoopHead.marks_instrument t h).bind fun _ hh => ?_
    refine (Expr.marks_instrument t e).bind fun _ he => ?_
    exact ((Stmt.marks_instrument t st).alone .body).map fun _ hst => hh.append (he.append hst)
  | varDecl d => exact (VarDecl.marks_instrument t d).map fun _ h => h
  | func name f | exportDefaultFunc p name f => exact (Function.marks_instrument t f).map fun _ h => h
  | classDecl name c | exportDefaultClass p name c =>
    exact (Class.marks_instrument t c).map fun _ h => h
  | exportDecl p d => exact (Stmt.marks_instrument t d).map fun _ h => h
  | empty | debugger | breakTo | continueTo | importNames | exportNames | exportAll | typed =>
    exact .pure .nil

theorem Stmt.marks_instrument? (t : Tracer) (st : Option Stmt) :
    Marks t (Stmt.branchParts? st) (Stmt.instrument? t st) fun st' =>
      AreProbed t (Stmt.branchParts? st) (Stmt.branchParts? st') := by
  cases st with
  | none => exact .pure .nil
  | some st => exact ((Stmt.marks_instrument t st).alone .branch).map fun _ h => h

/-- The probe after a statement has no parts of its own. -/
theorem Stmt.marks_instruments (t : Tracer) (ss : List Stmt) :
    Marks t (Stmt.partsOf ss) (Stmt.instruments t ss) fun ss' =>
      AreProbed t (Stmt.partsOf ss) (Stmt.partsOf ss') := by
  cases ss with
  | nil => exact .pure .nil
  | cons st r =>
    refine (Stmt.marks_instrument t st).bind fun st' hst => ?_
    refine (marks_after t st').bind fun new hnew => ?_
    refine (Stmt.marks_instruments t r).map fun r' hr => hst.append ?_
    have hparts : Stmt.partsOf (new ++ r') = Stmt.partsOf r' := by
      rw [Stmt.partsOf_append, hnew, List.nil_append]
    exact hparts.symm.subst (motive := AreProbed t (Stmt.partsOf r)) hr

theorem VarDecl.marks_instrument (t : Tracer) (d : VarDecl) :
    Marks t d.parts (d.instrument t) fun d' => AreProbed t d.parts d'.parts := by
  cases d with
  | mk p kind b items => exact (Declarator.marks_instruments t items).map fun _ h => h

theorem Declarator.marks_instrument (t : Tracer) (d : Declarator) :
    Marks t d.parts (d.instrument t) fun d' => AreProbed t d.parts d'.parts := by
  cases d with
  | mk p q e =>
    refine (Pat.marks_instrument t q).bind fun _ hq => ?_
    exact (Expr.marks_instrument? t e).map fun _ he => hq.append he

theorem Declarator.marks_instruments (t : Tracer) (ds : List Declarator) :
    Marks t (Declarator.partsOf ds) (Declarator.instruments t ds) fun ds' =>
      AreProbed t (Declarator.partsOf ds) (Declarator.partsOf ds') := by
  cases ds with
  | nil => exact .pure .nil
  | cons d r =>
    refine (Declarator.marks_instrument t d).bind fun _ hd => ?_
    exact (Declarator.marks_instruments t r).map fun _ hr => hd.append hr

theorem SwitchCase.marks_instrument (t : Tracer) (c : SwitchCase) :
    Marks t c.parts (c.instrument t) fun c' => AreProbed t c.parts c'.parts := by
  cases c with
  | mk p e ss =>
    have hss := (Stmt.marks_instruments t ss).and (P := Woven t ss) (woven_instruments t ss)
    refine (Expr.marks_instrument? t e).bind fun _ he => ?_
    refine (hss.skip (x := .list ss) rfl).map fun ss' ⟨hinner, hwoven⟩ => ?_
    exact he.append (.cons (.list hwoven) hinner)

theorem SwitchCase.marks_instruments (t : Tracer) (cs : List SwitchCase) :
    Marks t (SwitchCase.partsOf cs) (SwitchCase.instruments t cs) fun cs' =>
      AreProbed t (SwitchCase.partsOf cs) (SwitchCase.partsOf cs') := by
  cases cs with
  | nil => exact .pure .nil
  | cons c r =>
    refine (SwitchCase.marks_instrument t c).bind fun _ hc => ?_
    exact (SwitchCase.marks_instruments t r).map fun _ hr => hc.append hr

theorem Catch.marks_instrument (t : Tracer) (c : Catch) :
    Marks t c.parts (c.instrument t) fun c' => AreProbed t c.parts c'.parts := by
  cases c with
  | mk p q b =>
    refine Marks.inScope (fun s => (s.push .block).declareAll (q.elim [] Pat.boundNames)) ?_
    refine (Pat.marks_instrument? t q).bind fun _ hq => ?_
    exact (Block.marks_instrument t b).list.map fun _ hb => hq.append hb

theorem Catch.marks_instrument? (t : Tracer) (c : Option Catch) :
    Marks t (Catch.parts? c) (Catch.instrument? t c) fun c' =>
      AreProbed t (Catch.parts? c) (Catch.parts? c') := by
  cases c with
  | none => exact .pure .nil
  | some c => exact (Catch.marks_instrument t c).map fun _ h => h

theorem LoopHead.marks_instrument (t : Tracer) (h : LoopHead) :
    Marks t h.parts (h.instrument t) fun h' => AreProbed t h.parts h'.parts := by
  cases h with
  | none => exact .pure .nil
  | varDecl d => exact (VarDecl.marks_instrument t d).map fun _ h => h
  | pat q => exact (Pat.marks_instrument t q).map fun _ h => h
  | expr e => exact (Expr.marks_instrument t e).map fun _ h => h

end

end StepTrace.Script
