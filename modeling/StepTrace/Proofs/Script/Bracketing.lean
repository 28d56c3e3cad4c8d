import StepTrace.Proofs.Names
import StepTrace.Script.Scope

/-!
What a sequence of steps does to a stack of scopes that it leaves as deep as it found it. Put into a scope of
its own it leaves nothing behind, but for names that are declared by `var` through open blocks: these come
to the end of the nearest scope of a function, unless the sequence runs in a function.
-/
namespace StepTrace.Script

theorem foldl_insertName (names known : List String) :
    names.foldl insertName known = known ++ newNames known names := by
  induction names generalizing known with
  | nil => exact (List.append_nil known).symm
  | cons x r ih =>
    rw [List.foldl_cons, ih, insertName, newNames_cons]
    split
    · rfl
    · rw [List.append_assoc, List.singleton_append]

namespace ScopeStack

/-- What can be read are the names of all scopes, the outermost first, each where it comes first. -/
theorem visible_eq (s : ScopeStack) : s.visible = newNames [] (s.reverse.flatMap Scope.names) := by
  rw [visible, foldl_insertName, List.nil_append]

theorem mem_visible {s : ScopeStack} {x : String} :
    x ∈ s.visible ↔ (∃ scope ∈ s, x ∈ scope.names) ∧ x ≠ argumentsName := by
  simp [visible_eq, mem_newNames]

theorem nodup_visible (s : ScopeStack) : s.visible.Nodup := by
  rw [visible_eq]
  exact nodup_newNames ..

/-! ### Steps -/

/-- Changes the names of the nearest scope of a function, if there is one. -/
def mapFunctionNames (f : List String → List String) : ScopeStack → ScopeStack
  | [] => []
  | scope :: r =>
    if scope.kind = .function then { scope with names := f scope.names } :: r
    else scope :: mapFunctionNames f r

theorem pushFunction_eq (s : ScopeStack) (params : List String) :
    s.pushFunction params = ⟨.function, newNames [] params⟩ :: s := by
  have hall : ∀ known, declareAll (⟨.function, known⟩ :: s) params =
      ⟨.function, params.foldl insertName known⟩ :: s := by
    induction params with
    | nil => exact fun _ => rfl
    | cons x r ih => exact fun known => ih (insertName known x)
  rw [pushFunction, push, hall, foldl_insertName, List.nil_append]

theorem foldl_declareVar_function {scope : Scope} (h : scope.kind = .function) (s : ScopeStack)
    (names : List String) : names.foldl declareVar (scope :: s) =
      { scope with names := names.foldl insertName scope.names } :: s := by
  induction names generalizing scope with
  | nil => rfl
  | cons x r ih =>
    rw [List.foldl_cons, List.foldl_cons, declareVar, if_pos h]
    exact ih h

theorem foldl_declareVar_block {scope : Scope} (h : scope.kind ≠ .function) (s : ScopeStack)
    (names : List String) : names.foldl declareVar (scope :: s) = scope :: names.foldl declareVar s := by
  induction names generalizing s with
  | nil => rfl
  | cons x r ih =>
    rw [List.foldl_cons, List.foldl_cons, declareVar, if_neg h]
    exact ih _

/-- Names that are declared by `var` come to the end of the nearest scope of a function. -/
theorem foldl_declareVar (names : List String) (s : ScopeStack) :
    names.foldl declareVar s = s.mapFunctionNames fun known => known ++ newNames known names := by
  induction s with
  | nil =>
    induction names with
    | nil => rfl
    | cons x r ih => exact ih
  | cons scope s ih =>
    by_cases h : scope.kind = .function
    · rw [foldl_declareVar_function h, foldl_insertName, mapFunctionNames, if_pos h]
    · rw [foldl_declareVar_block h, ih, mapFunctionNames, if_neg h]

end ScopeStack

/-- A step that changes a stack of scopes. -/
inductive ScopeStep where
  | push (kind : ScopeKind)
  | pushFunction (params : List String)
  | declare (name : String)
  | declareVar (name : String)
  | pop
deriving DecidableEq, Repr

namespace ScopeStack

def take (s : ScopeStack) : ScopeStep → ScopeStack
  | .push kind => s.push kind
  | .pushFunction params => s.pushFunction params
  | .declare name => s.declare name
  | .declareVar name => s.declareVar name
  | .pop => s.pop

/-- Takes steps one after the other. -/
def run (s : ScopeStack) (w : List ScopeStep) : ScopeStack := w.foldl take s

@[simp] theorem run_nil (s : ScopeStack) : s.run [] = s := rfl

@[simp] theorem run_cons (s : ScopeStack) (o : ScopeStep) (w : List ScopeStep) :
    s.run (o :: w) = (s.take o).run w := rfl

theorem run_append (s : ScopeStack) (w w' : List ScopeStep) : s.run (w ++ w') = (s.run w).run w' :=
  List.foldl_append

end ScopeStack

namespace ScopeStep

/-- The kinds of the scopes that are open after some steps, when those in `ks` were open before; none if the
steps close more than that. -/
def opened : List ScopeKind → List ScopeStep → Option (List ScopeKind)
  | ks, [] => some ks
  | ks, .push kind :: w => opened (kind :: ks) w
  | ks, .pushFunction _ :: w => opened (.function :: ks) w
  | ks, .declare _ :: w | ks, .declareVar _ :: w => opened ks w
  | _ :: ks, .pop :: w => opened ks w
  | [], .pop :: _ => none

/-- The steps never close a scope that was open before them, and close all that they open. -/
def Balanced (w : List ScopeStep) : Prop := opened [] w = some []

instance (w : List ScopeStep) : Decidable (Balanced w) := inferInstanceAs (Decidable (_ = _))

/-- The names that are declared by `var` while no function is among the open scopes. -/
def outerVars : List ScopeKind → List ScopeStep → List String
  | _, [] => []
  | ks, .push kind :: w => outerVars (kind :: ks) w
  | ks, .pushFunction _ :: w => outerVars (.function :: ks) w
  | ks, .declare _ :: w => outerVars ks w
  | ks, .declareVar x :: w => if .function ∈ ks then outerVars ks w else x :: outerVars ks w
  | ks, .pop :: w => outerVars ks.tail w

end ScopeStep

namespace ScopeStack

open ScopeStep (opened Balanced outerVars)

/-! ### Steps within a scope -/

/-- A `var` stays in the open scopes if one of them is that of a function, and goes through them if not. -/
theorem declareVar_append (inner s : ScopeStack) (x : String) :
    (.function ∈ inner.map Scope.kind ∧ ∃ inner' : ScopeStack,
      inner'.map Scope.kind = inner.map Scope.kind ∧ declareVar (inner ++ s) x = inner' ++ s) ∨
    (.function ∉ inner.map Scope.kind ∧ declareVar (inner ++ s) x = inner ++ s.declareVar x) := by
  induction inner with
  | nil => exact Or.inr ⟨List.not_mem_nil, rfl⟩
  | cons scope inner ih =>
    by_cases h : scope.kind = .function
    · refine Or.inl ⟨List.mem_cons.2 (Or.inl h.symm), ?_⟩
      exact ⟨{ scope with names := insertName scope.names x } :: inner, rfl, if_pos h⟩
    · have hthrough : declareVar (scope :: inner ++ s) x = scope :: declareVar (inner ++ s) x := if_neg h
      rcases ih with ⟨hmem, inner', hkinds, heq⟩ | ⟨hmem, heq⟩
      · refine Or.inl ⟨List.mem_cons_of_mem _ hmem, scope :: inner', ?_, ?_⟩
        · exact congrArg (scope.kind :: ·) hkinds
        · rw [hthrough, heq, List.cons_append]
      · refine Or.inr ⟨fun hc => ?_, by rw [hthrough, heq, List.cons_append]⟩
        exact (List.mem_cons.1 hc).elim (fun he => h he.symm) hmem

/-- What steps do that leave a scope open: below it no more is declared than what `var` declares through all
open scopes. -/
theorem run_opened {w : List ScopeStep} {ks : List ScopeKind} (inner : ScopeStack) (base : Scope)
    (s : ScopeStack) (h : opened (inner.map Scope.kind) w = some ks) :
    ∃ (inner' : ScopeStack) (base' : Scope), inner'.map Scope.kind = ks ∧ base'.kind = base.kind ∧
      run (inner ++ base :: s) w = inner' ++ base' ::
        if base.kind = .function then s else (outerVars (inner.map Scope.kind) w).foldl declareVar s := by
  induction w generalizing inner base s with
  | nil =>
    refine ⟨inner, base, Option.some.inj h, rfl, ?_⟩
    split <;> rfl
  | cons o w ih =>
    cases o with
    | push kind => exact ih (⟨kind, []⟩ :: inner) base s h
    | pushFunction params =>
      rw [run_cons, take, pushFunction_eq]
      exact ih (⟨.function, newNames [] params⟩ :: inner) base s h
    | declare x =>
      cases inner with
      | nil => exact ih [] { base with names := insertName base.names x } s h
      | cons scope inner => exact ih ({ scope with names := insertName scope.names x } :: inner) base s h
    | declareVar x =>
      rw [run_cons, take]
      rcases declareVar_append inner (base :: s) x with ⟨hmem, inner', hkinds, heq⟩ | ⟨hmem, heq⟩
      · rw [heq, outerVars, if_pos hmem, ← hkinds]
        exact ih inner' base s (hkinds.symm ▸ h)
      · rw [heq, outerVars, if_neg hmem, declareVar]
        by_cases hbase : base.kind = .function
        · have hrun := ih inner { base with names := insertName base.names x } s h
          simpa only [if_pos hbase] using hrun
        · have hrun := ih inner base (s.declareVar x) h
          simpa only [if_neg hbase, List.foldl_cons] using hrun
    | pop =>
      cases inner with
      | nil => cases h
      | cons scope inner => exact ih inner base s h

/-- Balanced steps in a scope, which is closed after them. -/
theorem pop_run {w : List ScopeStep} (h : Balanced w) (scope : Scope) (s : ScopeStack) :
    (run (scope :: s) w).pop =
      if scope.kind = .function then s else (outerVars [] w).foldl declareVar s := by
  obtain ⟨inner, base, hinner, -, hrun⟩ := run_opened [] scope s h
  obtain rfl : inner = [] := List.map_eq_nil_iff.1 hinner
  exact congrArg pop hrun

/-! ### Scopes that come from nothing -/

/-- No scope has the name of all arguments. -/
def LacksArguments (s : ScopeStack) : Prop := ∀ scope ∈ s, argumentsName ∉ scope.names

theorem not_mem_insertName {names : List String} (h : argumentsName ∉ names) (x : String) :
    argumentsName ∉ insertName names x := by
  unfold insertName
  split
  · exact h
  · next hx =>
    intro hm
    exact (List.mem_append.1 hm).elim h fun hm => hx (Or.inl (List.mem_singleton.1 hm).symm)

namespace LacksArguments

variable {s : ScopeStack}

theorem cons {scope : Scope} (hscope : argumentsName ∉ scope.names) (h : s.LacksArguments) :
    LacksArguments (scope :: s) := List.forall_mem_cons.2 ⟨hscope, h⟩

theorem declareVar (h : s.LacksArguments) (x : String) : (s.declareVar x).LacksArguments := by
  induction s with
  | nil => exact h
  | cons scope s ih =>
    obtain ⟨hscope, hs⟩ := List.forall_mem_cons.1 h
    unfold ScopeStack.declareVar
    split
    · exact .cons (not_mem_insertName hscope x) hs
    · exact .cons hscope (ih hs)

theorem take (h : s.LacksArguments) (o : ScopeStep) : (s.take o).LacksArguments := by
  cases o with
  | push kind => exact .cons List.not_mem_nil h
  | pushFunction params =>
    rw [ScopeStack.take, pushFunction_eq]
    exact .cons (fun hm => (mem_newNames.1 hm).2.1 rfl) h
  | declare x =>
    cases s with
    | nil => exact h
    | cons scope s =>
      obtain ⟨hscope, hs⟩ := List.forall_mem_cons.1 h
      exact .cons (not_mem_insertName hscope x) hs
  | declareVar x => exact h.declareVar x
  | pop => exact fun scope hscope => h scope (List.mem_of_mem_tail hscope)

theorem run (h : s.LacksArguments) (w : List ScopeStep) : (s.run w).LacksArguments := by
  induction w generalizing s with
  | nil => exact h
  | cons o w ih => exact ih (h.take o)

theorem visible_eq (h : s.LacksArguments) : s.visible = (s.reverse.flatMap Scope.names).eraseDups := by
  have hall : ∀ x ∈ s.reverse.flatMap Scope.names, x ≠ argumentsName ∧ x ∉ [] := by
    intro x hx
    obtain ⟨scope, hscope, hx⟩ := List.mem_flatMap.1 hx
    exact ⟨fun he => h scope (List.mem_reverse.1 hscope) (he ▸ hx), List.not_mem_nil⟩
  rw [ScopeStack.visible_eq, newNames, List.filter_eq_self.2 fun x hx => decide_eq_true (hall x hx)]

end LacksArguments

/-- Balanced steps between the opening and the closing of a scope leave a stack as it was if the scope is that
of a function; in a block they bring the new names that `var` declares outside of their own functions to
the end of the nearest scope of a function. What can be read in scopes that steps have made are the names of
all of them, the outermost first and each once. -/
theorem run_bracket {w : List ScopeStep} (h : Balanced w) (s : ScopeStack) :
    s.run (.push .function :: (w ++ [.pop])) = s ∧
    (∀ params, s.run (.pushFunction params :: (w ++ [.pop])) = s) ∧
    s.run (.push .block :: (w ++ [.pop])) =
      s.mapFunctionNames (fun known => known ++ newNames known (outerVars [] w)) ∧
    ∀ v, (run [] v).visible = ((run [] v).reverse.flatMap Scope.names).eraseDups := by
  have hclose : ∀ scope : Scope, run (scope :: s) (w ++ [.pop]) =
      if scope.kind = .function then s else (outerVars [] w).foldl declareVar s := by
    intro scope
    rw [run_append]
    exact pop_run h scope s
  refine ⟨hclose ⟨.function, []⟩, fun params => ?_, ?_, fun v => ?_⟩
  · rw [run_cons, take, pushFunction_eq]
    exact hclose _
  · rw [← foldl_declareVar]
    exact hclose ⟨.block, []⟩
  · have hnil : LacksArguments [] := fun _ h => nomatch h
    exact (hnil.run v).visible_eq

/-- Steps with a block and a function inside, in a block of a function that knows one of the names. -/
theorem run_bracket_nested :
    let w : List ScopeStep := [.declareVar "a", .push .block, .declareVar "x", .declare "y",
      .pushFunction ["p"], .declareVar "b", .pop, .declareVar "arguments", .pop, .declareVar "z",
      .declareVar "a"]
    let s : ScopeStack := [⟨.block, ["l"]⟩, ⟨.function, ["x"]⟩, ⟨.function, ["a"]⟩]
    Balanced w ∧ s.run (.push .function :: (w ++ [.pop])) = s ∧
      s.run (.push .block :: (w ++ [.pop])) =
        [⟨.block, ["l"]⟩, ⟨.function, ["x", "a", "z"]⟩, ⟨.function, ["a"]⟩] := by
  intro w s
  have h : Balanced w := by decide
  obtain ⟨hfunction, -, hblock, -⟩ := run_bracket h s
  exact ⟨h, hfunction, hblock.trans (by decide)⟩

end ScopeStack

end StepTrace.Script
