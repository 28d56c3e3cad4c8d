import StepTrace.Proofs.Script.Ambient
import StepTrace.Proofs.Script.Placement

/-!
Whole programs with probes: each step is followed by its probe and no other statement by one, in every list of
statements at every depth, and each function that was read has one probe of its own, unless it is an accessor
of an object literal: these are passed over.
-/
namespace StepTrace.Script

open Trace

/-! ### The program as a list of statements -/

theorem parts_of_isDirective {s : Stmt} (h : s.isDirective = true) : s.parts = [] := by
  cases s with
  | expr p e =>
    cases e with
    | literal => rfl
    | _ => cases h
  | _ => cases h

/-- Directives have no parts. -/
theorem partsOf_directives_append (ss rest : List Stmt) :
    Stmt.partsOf (ss.takeWhile Stmt.isDirective ++ rest) = Stmt.partsOf rest := by
  have hnone : Stmt.partsOf (ss.takeWhile Stmt.isDirective) = [] := by
    rw [Stmt.partsOf_eq_flatMap]
    exact List.flatMap_eq_nil_iff.2 fun s hs => parts_of_isDirective (List.mem_takeWhile_imp hs)
  rw [Stmt.partsOf_append, hnone, List.nil_append]

/-- A program with its probes, part by part. Its header stands after its directives. -/
theorem exists_instrument_areProbed (t : Tracer) (p : Program) :
    ∃ rest, (p.instrument t).1 =
        { p with body := p.body.takeWhile Stmt.isDirective ++ [Probe.fallback] ++ rest } ∧
      Woven t (p.body.dropWhile Stmt.isDirective) rest ∧
      AreProbed t p.parts (Stmt.partsOf rest) := by
  obtain ⟨s, -, hs⟩ := exists_instrument_eq t p
  obtain ⟨hdirectives, hrest⟩ := (woven_instruments t p.body s).directives
  have hparts := (Stmt.marks_instruments t p.body s).2
  rw [Stmt.insertAfterDirectives, hdirectives] at hs
  rw [← List.takeWhile_append_dropWhile (p := Stmt.isDirective)
    (l := result (Stmt.instruments t p.body) s), hdirectives, partsOf_directives_append] at hparts
  exact ⟨_, hs, hrest, hparts⟩

/-! ### Steps -/

/-- The statements of a block that is no body of a function, or of a clause. -/
def Part.list? : Part → Option (List Stmt)
  | .list ss => some ss
  | .callable _ | .alone .. => none

/-- The statements of the body of a function. -/
def Part.body? : Part → Option (List Stmt)
  | .callable ⟨_, _, _, .block (.mk _ ss)⟩ => some ss
  | .callable ⟨_, _, _, .expr _⟩ | .list _ | .alone .. => none

/-- The statements of a body with a probe after each step, and perhaps one more at the start. -/
def BodyWoven (t : Tracer) (ss ss' : List Stmt) : Prop :=
  ∃ entry : Option ProbeSite, (∀ x ∈ entry, x.kind = .entry) ∧
    WovenAfter t (entry.map fun x => Probe.stmt (Probe.call t.file x)).toList ss ss'

theorem Part.Probed.list? {t : Tracer} {x y : Part} (h : x.Probed t y) :
    Option.Rel (Woven t) x.list? y.list? := by
  cases h with
  | list h => exact .some h
  | callable | alone => exact .none

theorem Callable.kind_of_site? {t : Tracer} {f : Callable} {x : ProbeSite} (h : x ∈ f.site? t) :
    x.kind = f.body.probeKind := by
  unfold Callable.site? at h
  split at h
  · cases h
  · obtain ⟨span, -, rfl⟩ := Option.map_eq_some_iff.1 h
    rfl

theorem Part.Probed.body? {t : Tracer} {x y : Part} (h : x.Probed t y) :
    Option.Rel (BodyWoven t) x.body? y.body? := by
  cases h with
  | list | alone => exact .none
  | @callable f f' h =>
    have hkind : ∀ x ∈ f.site? t, x.kind = f.body.probeKind := fun _ => Callable.kind_of_site?
    obtain ⟨p, isProperty, names, body⟩ := f
    obtain ⟨p', isProperty', names', body'⟩ := f'
    cases h.body with
    | block hss => exact .some ⟨_, hkind, hss⟩
    | expr => exact .none

/-- Each step is followed by one probe with its position, and no other statement by one: in a program, after
whose directives stands its header, and in each list of statements in it. Exports that are only described,
which would be steps too, are not left in a program without types. -/
theorem Program.woven_instrument (t : Tracer) (p : Program) :
    (∃ rest, (p.instrument t).1 =
        { p with body := p.body.takeWhile Stmt.isDirective ++ [Probe.fallback] ++ rest } ∧
      Woven t (p.body.dropWhile Stmt.isDirective) rest ∧
      List.Forall₂ (Woven t) (p.parts.filterMap Part.list?) ((Stmt.partsOf rest).filterMap Part.list?) ∧
      List.Forall₂ (BodyWoven t) (p.parts.filterMap Part.body?)
        ((Stmt.partsOf rest).filterMap Part.body?)) ∧
    p.withoutTypes.body.any Stmt.isAmbientExport = false := by
  obtain ⟨rest, hp, hrest, hparts⟩ := exists_instrument_areProbed t p
  have hlists := List.rel_filterMap (fun _ _ h => Part.Probed.list? h) hparts
  have hbodies := List.rel_filterMap (fun _ _ h => Part.Probed.body? h) hparts
  have hambient := List.any_eq_false.2 fun s hs =>
    Bool.eq_false_iff.1 (Program.noneAmbient_withoutTypes p s hs)
  exact ⟨⟨rest, hp, hrest, hlists, hbodies⟩, hambient⟩

/-! ### Functions -/

/-- A function that was read, of which it can be told where. -/
def Part.callable? : Part → Option Callable
  | .callable f => if f.place.isSome then some f else none
  | .list _ | .alone .. => none

/-- The functions of a program, at every depth. -/
def Program.callables (p : Program) : List Callable := p.parts.filterMap Part.callable?

theorem Part.Probed.callable? {t : Tracer} {x y : Part} (h : x.Probed t y) :
    Option.Rel (Callable.Entered t) x.callable? y.callable? := by
  cases h with
  | list | alone => exact .none
  | @callable f f' h =>
    simp only [Part.callable?, h.place_eq]
    split
    · exact .some h
    · exact .none

theorem Part.site?_eq_bind (t : Tracer) (x : Part) :
    x.site? t = x.callable?.bind (Callable.site? t) := by
  cases x with
  | list | alone => rfl
  | callable f =>
    obtain ⟨p, isProperty, names, body⟩ := f
    cases p with
    | some span => rfl
    | none => cases isProperty <;> rfl

theorem filterMap_site? (t : Tracer) (parts : List Part) :
    parts.filterMap (Part.site? t) = (parts.filterMap Part.callable?).filterMap (Callable.site? t) := by
  rw [List.filterMap_filterMap]
  exact congr(parts.filterMap $(funext (Part.site?_eq_bind t)))

/-- The probes that are not of statements are those of the functions. -/
theorem Program.entries_instrument (t : Tracer) (p : Program) :
    (p.instrument t).2.filter (·.kind ≠ .statement) = p.callables.filterMap (Callable.site? t) := by
  have hentries := (Stmt.marks_instruments t p.body).inScope (·.push .function) ⟨[], []⟩ |>.1
  calc (p.instrument t).2.filter (·.kind ≠ .statement)
      = (Tracing.entries (inScope (·.push .function) (Stmt.instruments t p.body) ⟨[], []⟩).2).reverse :=
        List.filter_reverse ..
    _ = p.parts.filterMap (Part.site? t) := by
        rw [hentries, Tracing.entries, List.filter_nil, List.append_nil, List.reverse_reverse, Program.parts]
    _ = p.callables.filterMap (Callable.site? t) := filterMap_site? t _

/-- Each function that was read has one probe that reads its parameters, at its start or before its value, and
these are all the probes that are not of statements; but an accessor of an object literal has none. -/
theorem Program.entered_instrument (t : Tracer) (p : Program) :
    List.Forall₂ (Callable.Entered t) p.callables (p.instrument t).1.callables ∧
      (p.instrument t).2.filter (·.kind ≠ .statement) = p.callables.filterMap (Callable.site? t) := by
  obtain ⟨rest, hp, -, hparts⟩ := exists_instrument_areProbed t p
  have hcallables : (p.instrument t).1.callables = (Stmt.partsOf rest).filterMap Part.callable? := by
    rw [hp, Program.callables, Program.parts, List.append_assoc, partsOf_directives_append]
    rfl
  have hentered := List.rel_filterMap (fun _ _ h => Part.Probed.callable? h) hparts
  exact ⟨hcallables ▸ hentered, Program.entries_instrument t p⟩

/-- Shows that the getter of an object literal has no probe, unlike the same getter of a class. -/
theorem Program.not_entered_of_accessor :
    let at_ (n : Nat) : Place := some ⟨n, n + 1⟩
    let body : Block := .mk (at_ 2) [.returnStmt (at_ 3) (some (.literal (at_ 3) (.number "1")))]
    let key : Key := .name ⟨at_ 1, "a"⟩
    let object : Stmt := .expr (at_ 0) (.paren (at_ 0) (.object (at_ 0) [.getter (at_ 1) key body]))
    let f : Function := .mk (at_ 1) false false [] [] (some body)
    let classDecl : Stmt :=
      .classDecl ⟨at_ 0, "C"⟩ (.mk (at_ 0) [] [.method (at_ 1) key .getter false false f] none)
    let t : Tracer := ⟨"t.js", fun n => ⟨1, n⟩⟩
    let told (s : Stmt) : List (Option Nat) × List ProbeKind :=
      let p : Program := ⟨false, none, [s]⟩
      (p.callables.map fun f => f.place.map Span.start, (p.instrument t).2.map ProbeSite.kind)
    told object = ([some 1], [.statement]) ∧ told classDecl = ([some 1], [.entry]) := by
  intro at_ body key object f classDecl t told
  exact ⟨by decide +kernel, by decide +kernel⟩

end StepTrace.Script
