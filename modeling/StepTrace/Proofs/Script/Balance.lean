import StepTrace.Proofs.Script.Completeness

/-!
What visiting a node of a program does to the scopes: it leaves the same scopes open, and no name that they had is
lost or moved. New names come to the end of the nearest scope of a function alone, but for what a list of
statements declares in the scope that it stands in; and a function leaves nothing behind at all.
-/
namespace StepTrace.Script

open Trace

/-! ### Scopes that grow -/

/-- A scope that has at most more names at its end. -/
structure Scope.Extends (scope scope' : Scope) : Prop where
  kind_eq : scope'.kind = scope.kind
  names_prefix : scope.names <+: scope'.names

namespace Scope.Extends

theorem refl (scope : Scope) : scope.Extends scope := ⟨rfl, List.prefix_refl _⟩

theorem trans {a b c : Scope} (h : a.Extends b) (h' : b.Extends c) : a.Extends c :=
  ⟨h'.kind_eq.trans h.kind_eq, h.names_prefix.trans h'.names_prefix⟩

theorem insertName (scope : Scope) (x : String) :
    scope.Extends { scope with names := Script.insertName scope.names x } := by
  refine ⟨rfl, ?_⟩
  unfold Script.insertName
  split
  · exact List.prefix_refl _
  · exact List.prefix_append _ _

end Scope.Extends

namespace ScopeStack

/-- The place of the nearest scope of a function, after all scopes if there is none. -/
def functionPlace (s : ScopeStack) : ℕ := s.findIdx fun scope => scope.kind = .function

/-- As many scopes of the same kinds, each with the names that it had and at most more of them at its end. Only those
at some places may have more, where the innermost scope has place 0. -/
structure Grows (places : ℕ → Prop) (s s' : ScopeStack) : Prop where
  scopes : List.Forall₂ Scope.Extends s s'
  same : ∀ i, ¬ places i → s'[i]? = s[i]?

namespace Grows

variable {places : ℕ → Prop} {s s' s'' : ScopeStack}

theorem refl (places : ℕ → Prop) (s : ScopeStack) : Grows places s s :=
  ⟨List.forall₂_same.2 fun scope _ => Scope.Extends.refl scope, fun _ _ => rfl⟩

theorem trans (h : Grows places s s') (h' : Grows places s' s'') : Grows places s s'' := by
  refine ⟨?_, fun i hi => (h'.same i hi).trans (h.same i hi)⟩
  have hfirst := h.scopes
  have hsecond := h'.scopes
  clear h h'
  induction hfirst generalizing s'' with
  | nil => exact hsecond
  | cons hscope _ ih =>
    cases hsecond with
    | cons hscope' hrest => exact .cons (hscope.trans hscope') (ih hrest)

theorem cons (scope : Scope) (h : Grows (fun i => places (i + 1)) s s') :
    Grows places (scope :: s) (scope :: s') := by
  refine ⟨.cons (.refl scope) h.scopes, fun i hi => ?_⟩
  cases i with
  | zero => rfl
  | succ i => exact h.same i hi

theorem head {scope scope' : Scope} (h : scope.Extends scope') (hplace : places 0) (s : ScopeStack) :
    Grows places (scope :: s) (scope' :: s) := by
  refine ⟨.cons h (Grows.refl places s).scopes, fun i hi => ?_⟩
  cases i with
  | zero => exact absurd hplace hi
  | succ i => rfl

end Grows

theorem grows_declare {places : ℕ → Prop} (s : ScopeStack) (x : String) (hplace : places 0) :
    Grows places s (s.declare x) := by
  cases s with
  | nil => exact .refl _ _
  | cons scope s => exact .head (.insertName scope x) hplace s

theorem grows_declareVar {places : ℕ → Prop} (s : ScopeStack) (x : String)
    (hplace : places s.functionPlace) : Grows places s (s.declareVar x) := by
  induction s generalizing places with
  | nil => exact .refl _ _
  | cons scope s ih =>
    unfold functionPlace at hplace
    rw [List.findIdx_cons] at hplace
    unfold declareVar
    by_cases h : scope.kind = .function
    · rw [decide_eq_true h] at hplace
      rw [if_pos h]
      exact .head (.insertName scope x) hplace s
    · rw [decide_eq_false h] at hplace
      rw [if_neg h]
      exact .cons scope (ih hplace)

theorem functionPlace_eq {s s' : ScopeStack} (h : s'.map Scope.kind = s.map Scope.kind) :
    s'.functionPlace = s.functionPlace := by
  have hkinds (s : ScopeStack) : s.functionPlace = (s.map Scope.kind).findIdx fun kind => kind = .function := by
    rw [List.findIdx_map]
    rfl
  rw [hkinds, hkinds, h]

/-- Declarations come to a scope of a function, and to the innermost scope if any are meant for it. -/
theorem grows_run {w : List ScopeStep} (hw : AreDeclarations w) {places : ℕ → Prop} (s : ScopeStack)
    (hvar : places s.functionPlace) (hlexical : w.filterMap ScopeStep.lexicalName? = [] ∨ places 0) :
    Grows places s (s.run w) := by
  induction w generalizing s with
  | nil => exact .refl _ _
  | cons o w ih =>
    obtain ⟨⟨x, ho, -⟩, hrest⟩ := List.forall_mem_cons.1 hw
    have hplace : places (s.take o).functionPlace := by rwa [functionPlace_eq (map_kind_take ho)]
    cases o with
    | declare x =>
      have hinner : places 0 := hlexical.resolve_left (List.cons_ne_nil _ _)
      exact (s.grows_declare x hinner).trans (ih hrest _ hplace (.inr hinner))
    | declareVar x => exact (s.grows_declareVar x hvar).trans (ih hrest _ hplace hlexical)
    | push | pushFunction | pop => cases ho

end ScopeStack

/-! ### Traversals -/

namespace Trace

open ScopeStack

variable {α : Type} {t : Tracer} {env : List Due} {ds : List Demand} {vars lexical : List String}
  {m : Trace α}

/-- A traversal that notes nothing for the innermost scope lets only the nearest scope of a function grow. -/
theorem Notes.grows (h : Notes t env ds vars lexical m) {places : ℕ → Prop} (s : Tracing)
    (hvar : places s.scopes.functionPlace) (hlexical : lexical = [] ∨ places 0) :
    Grows places s.scopes (m s).2.scopes := by
  obtain ⟨w, hw, hs⟩ := (h s).scopes
  rw [hs]
  exact grows_run hw.areDeclarations s.scopes hvar (hw.lexical_eq.symm ▸ hlexical)

/-- A function leaves nothing behind. -/
theorem Notes.scopes_inFunction (h : Notes t env ds vars lexical m) (names : List String) (s : Tracing) :
    (Trace.inFunction names m s).2.scopes = s.scopes := by
  obtain ⟨w, hw, hs⟩ := (h { s with scopes := s.scopes.pushFunction names }).scopes
  have hpop := pop_run (hw.areDeclarations.opened_eq []) ⟨.function, newNames [] names⟩ s.scopes
  calc (Trace.inFunction names m s).2.scopes
      = (m { s with scopes := s.scopes.pushFunction names }).2.scopes.pop := rfl
    _ = (run (s.scopes.pushFunction names) w).pop := by rw [hs]
    _ = s.scopes := by
      rw [pushFunction_eq]
      exact hpop

end Trace

/-! ### Nodes -/

/-- A node of the tree of a program that a traversal visits, or a list of statements. The body of an arrow function is
a block or an expression, and of declarations that only TypeScript has none are left. -/
inductive Node where
  | program (p : Program)
  | list (ss : List Stmt)
  | stmt (st : Stmt)
  | block (b : Block)
  | varDecl (d : VarDecl)
  | declarator (d : Declarator)
  | loopHead (h : LoopHead)
  | switchCase (c : SwitchCase)
  | catchClause (c : Catch)
  | expr (e : Expr)
  | property (p : Property)
  | key (k : Key)
  | pat (q : Pat)
  | patProperty (p : PatProperty)
  | jsxPart (p : JsxPart)
  | function (f : Function)
  | param (p : Param)
  | classBody (c : Class)
  | member (m : ClassMember)

namespace Node

/-- What a visit comes to from some state. -/
def visit (t : Tracer) (s : Tracing) : Node → Tracing
  | program p => (inScope (·.push .function) (Stmt.instruments t p.body) s).2
  | list ss => (Stmt.instruments t ss s).2
  | stmt st => (st.instrument t s).2
  | block b => (b.instrument t s).2
  | varDecl d => (d.instrument t s).2
  | declarator d => (d.instrument t s).2
  | loopHead h => (h.instrument t s).2
  | switchCase c => (c.instrument t s).2
  | catchClause c => (c.instrument t s).2
  | expr e => (e.instrument t s).2
  | property p => (p.instrument t s).2
  | key k => (k.instrument t s).2
  | pat q => (q.instrument t s).2
  | patProperty p => (p.instrument t s).2
  | jsxPart p => (p.instrument t s).2
  | function f => (f.instrument t s).2
  | param p => (p.instrument t s).2
  | classBody c => (c.instrument t s).2
  | member m => (m.instrument t s).2

/-- A list of statements, also that of a clause of a `switch`, which has no scope of its own. -/
def isList : Node → Bool
  | list _ | switchCase _ => true
  | _ => false

/-- A program, or a function of any kind: a method without its key, a constructor, an arrow function, or an accessor
of an object literal with its key. -/
def isCallable : Node → Bool
  | program _ | function _ | member (.ctor ..) | expr (.arrow ..) | expr (.func ..) | property (.getter ..)
  | property (.setter ..) | stmt (.func ..) | stmt (.exportDefaultFunc ..) => true
  | _ => false

/-- Where a visit may make scopes grow. -/
def GrowsAt (n : Node) (s : ScopeStack) (i : ℕ) : Prop := i = s.functionPlace ∨ n.isList ∧ i = 0

theorem grows_visit (t : Tracer) (s : Tracing) (n : Node) :
    ScopeStack.Grows (n.GrowsAt s.scopes) s.scopes (n.visit t s).scopes := by
  have hvar : n.GrowsAt s.scopes s.scopes.functionPlace := .inl rfl
  cases n with
  | program p => exact (Stmt.notes_instruments t [] p.body).scopes_inFunction [] s ▸ .refl _ _
  | list ss => exact (Stmt.notes_instruments t [] ss).grows s hvar (.inr (.inr ⟨rfl, rfl⟩))
  | switchCase c => exact (SwitchCase.notes_instrument t [] c).grows s hvar (.inr (.inr ⟨rfl, rfl⟩))
  | stmt st => exact (Stmt.notes_instrument t [] st).grows s hvar (.inl rfl)
  | block b => exact (Block.notes_instrument t [] b).grows s hvar (.inl rfl)
  | varDecl d => exact (VarDecl.notes_instrument t [] d).grows s hvar (.inl rfl)
  | declarator d => exact (Declarator.notes_instrument t [] d).grows s hvar (.inl rfl)
  | loopHead h => exact (LoopHead.notes_instrument t [] h).grows s hvar (.inl rfl)
  | catchClause c => exact (Catch.notes_instrument? t [] (some c)).grows s hvar (.inl rfl)
  | expr e => exact (Expr.notes_instrument t [] e).grows s hvar (.inl rfl)
  | property p => exact (Property.notes_instrument t [] p).grows s hvar (.inl rfl)
  | key k => exact (Key.notes_instrument t [] k).grows s hvar (.inl rfl)
  | pat q => exact (Pat.notes_instrument t [] q).grows s hvar (.inl rfl)
  | patProperty p => exact (PatProperty.notes_instrument t [] p).grows s hvar (.inl rfl)
  | jsxPart p => exact (JsxPart.notes_instrument t [] p).grows s hvar (.inl rfl)
  | function f => exact (Function.notes_instrument t [] f).grows s hvar (.inl rfl)
  | param p => exact (Param.notes_instrument t [] p).grows s hvar (.inl rfl)
  | classBody c => exact (Class.notes_instrument t [] c).grows s hvar (.inl rfl)
  | member m => exact (ClassMember.notes_instrument t [] m).grows s hvar (.inl rfl)

theorem scopes_visit_function (t : Tracer) (s : Tracing) (f : Function) :
    (f.instrument t s).2.scopes = s.scopes := by
  cases f with
  | mk p a g ds ps b =>
    have hnames := Pat.arguments_not_mem_boundNamesOf (ps.map Param.pat)
    exact Notes.scopes_inFunction ((Expr.notes_instruments t [] ds).seq fun _ =>
      (Param.notes_instruments t [] ps).seq fun _ => (Block.notes_instrumentBody? t [] p hnames b).map) _ s

theorem scopes_visit_of_isCallable (t : Tracer) (s : Tracing) {n : Node} (h : n.isCallable) :
    (n.visit t s).scopes = s.scopes := by
  unfold isCallable at h
  split at h
  · next p => exact (Stmt.notes_instruments t [] p.body).scopes_inFunction [] s
  · next f => exact scopes_visit_function t s f
  · next p k ps b =>
    have hnames := Pat.arguments_not_mem_boundNamesOf (ps.map Param.pat)
    exact Notes.scopes_inFunction ((Param.notes_instruments t [] ps).seq fun _ =>
      (Block.notes_instrumentBody? t [] p hnames b).map) _ s
  · next p a ps b =>
    have hnames := Pat.arguments_not_mem_boundNamesOf ps
    exact Notes.scopes_inFunction ((Pat.notes_instruments t [] ps).seq fun _ =>
      (ArrowBody.notes_instrument t [] p hnames b).map) _ s
  · next name f => exact scopes_visit_function t s f
  · next p k b =>
    exact Notes.scopes_inFunction ((Key.notes_instrument t [] k).seq fun _ =>
      (Block.notes_instrument t [] b).drop.map) _ s
  · next p k q b =>
    exact Notes.scopes_inFunction ((Key.notes_instrument t [] k).seq fun _ =>
      (Pat.notes_instrument t [] q).seq fun _ => (Block.notes_instrument t [] b).drop.map) _ s
  · next name f => exact scopes_visit_function t s f
  · next p name f => exact scopes_visit_function t s f
  · cases h

/-- From any scopes a visit of any node comes to as many scopes of the same kinds, and the names of each are those
that it had before and at most more at their end. None has more but the nearest scope of a function and, if the node
is a list of statements, the innermost scope; and a visit of a function of any kind leaves the scopes as they
were. -/
theorem scopes_visit (t : Tracer) (s : Tracing) (n : Node) :
    ScopeStack.Grows (n.GrowsAt s.scopes) s.scopes (n.visit t s).scopes ∧
      (n.isCallable → (n.visit t s).scopes = s.scopes) :=
  ⟨n.grows_visit t s, scopes_visit_of_isCallable t s⟩

/-- A list with a block that declares by `var` and a `let` after it, in a block of a function; and a function with
that list as its body. -/
theorem scopes_visit_nested :
    let at_ (n : Nat) : Place := some ⟨n, n + 1⟩
    let x : VarDecl := .mk (at_ 2) .var false [.mk (at_ 6) (.ident ⟨at_ 6, "x"⟩) none]
    let y : VarDecl := .mk (at_ 11) .let false [.mk (at_ 15) (.ident ⟨at_ 15, "y"⟩) none]
    let stmts : List Stmt := [.block (.mk (at_ 0) [.varDecl x]), .varDecl y]
    let f : Function := .mk (at_ 20) false false [] [.mk (at_ 30) [] false (.ident ⟨at_ 30, "p"⟩)]
      (some (.mk (at_ 33) stmts))
    let t : Tracer := ⟨"t.js", fun n => ⟨1, n⟩⟩
    let s : Tracing := ⟨[⟨.block, ["l"]⟩, ⟨.block, []⟩, ⟨.function, ["a"]⟩, ⟨.function, ["b"]⟩], []⟩
    ((Node.list stmts).visit t s).scopes =
        [⟨.block, ["l", "y"]⟩, ⟨.block, []⟩, ⟨.function, ["a", "x"]⟩, ⟨.function, ["b"]⟩] ∧
      ScopeStack.Grows (fun i => i = 2 ∨ i = 0) s.scopes ((Node.list stmts).visit t s).scopes ∧
      (Node.function f).isCallable ∧ ((Node.function f).visit t s).scopes = s.scopes := by
  intro at_ x y stmts f t s
  refine ⟨by decide +kernel, ?_, rfl, (scopes_visit t s (.function f)).2 rfl⟩
  obtain ⟨hscopes, hsame⟩ := (scopes_visit t s (.list stmts)).1
  exact ⟨hscopes, fun i hi => hsame i fun h => hi (h.imp id And.right)⟩

end Node

end StepTrace.Script
