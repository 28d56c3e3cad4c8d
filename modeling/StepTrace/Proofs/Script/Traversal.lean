import Mathlib.Data.List.Forall2
import StepTrace.Proofs.Script.Unprobe

/-!
What a traversal does to scopes. A name is declared only when its statement has been passed, so the scopes
on the way never hold more than some full scopes do, which hold all that is ever declared in them. What a
traversal keeps below full scopes is put together from what its steps keep.
-/
namespace StepTrace.Script

theorem mem_insertName {x name : String} {names : List String} (h : x ∈ insertName names name) :
    x ∈ names ∨ x = name := by
  unfold insertName at h
  split at h
  · exact Or.inl h
  · simpa using h

theorem mem_foldl_insertName {x : String} {names acc : List String}
    (h : x ∈ names.foldl insertName acc) : x ∈ acc ∨ x ∈ names := by
  induction names generalizing acc with
  | nil => exact Or.inl h
  | cons name r ih =>
    rcases ih h with h | h
    · rcases mem_insertName h with h | rfl
      · exact Or.inl h
      · exact Or.inr List.mem_cons_self
    · exact Or.inr (List.mem_cons_of_mem _ h)

/-! ### Full scopes -/

/-- A scope of the kind of `full`, without a name that `full` lacks. -/
structure Scope.Below (scope full : Scope) : Prop where
  kind_eq : scope.kind = full.kind
  names_subset : scope.names ⊆ full.names

namespace Scope.Below

theorem refl (scope : Scope) : scope.Below scope := ⟨rfl, List.Subset.refl _⟩

theorem trans {a b c : Scope} (h : a.Below b) (h' : b.Below c) : a.Below c :=
  ⟨h.kind_eq.trans h'.kind_eq, List.Subset.trans h.names_subset h'.names_subset⟩

theorem insertName {scope full : Scope} (h : scope.Below full) {name : String}
    (hname : name ∈ full.names) :
    Scope.Below ⟨scope.kind, Script.insertName scope.names name⟩ full := by
  refine ⟨h.kind_eq, fun x hx => ?_⟩
  rcases mem_insertName hx with hx | rfl
  · exact h.names_subset hx
  · exact hname

end Scope.Below

namespace ScopeStack

/-- Scope by scope, no more names than in `full`. -/
def Below (s full : ScopeStack) : Prop := List.Forall₂ Scope.Below s full

/-- All names in scope. -/
def names (s : ScopeStack) : List String := s.flatMap Scope.names

/-- The innermost scope, if there is one, has some names. -/
def Holds (names : List String) : ScopeStack → Prop
  | [] => True
  | scope :: _ => names ⊆ scope.names

/-- The nearest scope of a function, if there is one, has some names. -/
def HoldsVars (names : List String) : ScopeStack → Prop
  | [] => True
  | scope :: r => if scope.kind = .function then names ⊆ scope.names else HoldsVars names r

theorem Holds.mono {names names' : List String} (hsub : names ⊆ names') :
    ∀ {full : ScopeStack}, Holds names' full → Holds names full
  | [], _ => trivial
  | _ :: _, h => List.Subset.trans hsub h

theorem HoldsVars.mono {names names' : List String} (hsub : names ⊆ names') :
    ∀ {full : ScopeStack}, HoldsVars names' full → HoldsVars names full
  | [], _ => trivial
  | scope :: r, h => by
    unfold HoldsVars at h ⊢
    split
    · next hk => rw [if_pos hk] at h; exact List.Subset.trans hsub h
    · next hk => rw [if_neg hk] at h; exact HoldsVars.mono hsub h

/-- More names in the innermost scope. -/
theorem HoldsVars.widen {kind : ScopeKind} {names names' vars : List String} {full : ScopeStack}
    (hsub : names ⊆ names') (h : HoldsVars vars (⟨kind, names⟩ :: full)) :
    HoldsVars vars (⟨kind, names'⟩ :: full) := by
  cases kind with
  | function => exact List.Subset.trans h hsub
  | block => exact h

theorem holdsVars_nil : ∀ full : ScopeStack, HoldsVars [] full
  | [] => trivial
  | scope :: r => by
    unfold HoldsVars
    split
    · exact List.nil_subset _
    · exact holdsVars_nil r

/-- The parameters of a function are in scope in its body. -/
theorem subset_names_append (kind : ScopeKind) (vars params : List String) (full : ScopeStack) :
    params ⊆ names (⟨kind, vars ++ params⟩ :: full) :=
  List.subset_append_of_subset_left _ (List.subset_append_right vars params)

namespace Below

theorem refl (full : ScopeStack) : full.Below full :=
  List.forall₂_same.2 fun scope _ => Scope.Below.refl scope

theorem trans {a b c : ScopeStack} (h : a.Below b) (h' : b.Below c) : a.Below c := by
  induction h generalizing c with
  | nil => exact h'
  | cons hs _ ih =>
    cases h' with
    | cons hs' hr' => exact .cons (hs.trans hs') (ih hr')

theorem names_subset {s full : ScopeStack} (h : s.Below full) : s.names ⊆ full.names := by
  induction h with
  | nil => exact List.Subset.refl _
  | cons hs _ ih =>
    exact List.append_subset.2
      ⟨List.subset_append_of_subset_left _ hs.names_subset, List.subset_append_of_subset_right _ ih⟩

/-- What can be read is in scope. -/
theorem visible_subset {s full : ScopeStack} (h : s.Below full) : s.visible ⊆ full.names := by
  intro x hx
  rcases mem_foldl_insertName hx with hx | hx
  · cases hx
  · refine h.names_subset ?_
    simpa [names] using hx

theorem declare {s full : ScopeStack} (h : s.Below full) {name : String} (hname : full.Holds [name]) :
    (s.declare name).Below full := by
  cases h with
  | nil => exact .nil
  | cons hs hr => exact .cons (hs.insertName (hname List.mem_cons_self)) hr

theorem declareAll {s full : ScopeStack} (h : s.Below full) {names : List String}
    (hnames : full.Holds names) : (s.declareAll names).Below full := by
  induction names generalizing s with
  | nil => exact h
  | cons name r ih =>
    have hd := h.declare (hnames.mono (List.cons_subset_cons _ (List.nil_subset r)))
    exact ih hd (hnames.mono (List.subset_cons_self _ _))

theorem declareVar {s full : ScopeStack} (h : s.Below full) {name : String}
    (hname : full.HoldsVars [name]) : (s.declareVar name).Below full := by
  induction h with
  | nil => exact .nil
  | @cons scope fullScope _ _ hs hr ih =>
    unfold ScopeStack.declareVar
    unfold HoldsVars at hname
    by_cases hk : fullScope.kind = .function
    · rw [if_pos hk] at hname
      rw [if_pos (hs.kind_eq.trans hk)]
      exact .cons (hs.insertName (hname List.mem_cons_self)) hr
    · rw [if_neg hk] at hname
      rw [if_neg (hs.kind_eq.symm ▸ hk)]
      exact .cons hs (ih hname)

theorem declareVars {s full : ScopeStack} (h : s.Below full) {names : List String}
    (hnames : full.HoldsVars names) : (names.foldl ScopeStack.declareVar s).Below full := by
  induction names generalizing s with
  | nil => exact h
  | cons name r ih =>
    have hd := h.declareVar (hnames.mono (List.cons_subset_cons _ (List.nil_subset r)))
    exact ih hd (hnames.mono (List.subset_cons_self _ _))

theorem push {s full : ScopeStack} (h : s.Below full) (kind : ScopeKind) (names : List String) :
    (s.push kind).Below (⟨kind, names⟩ :: full) := .cons ⟨rfl, List.nil_subset _⟩ h

theorem pushFunction {s full : ScopeStack} (h : s.Below full) (names : List String) :
    (s.pushFunction names).Below (⟨.function, names⟩ :: full) :=
  (h.push .function names).declareAll (List.Subset.refl names)

theorem pop {s full : ScopeStack} {inner : Scope} (h : s.Below (inner :: full)) : s.pop.Below full := by
  cases h with
  | cons _ hr => exact hr

/-- More names in the innermost scope. -/
theorem widen {kind : ScopeKind} {names names' : List String} (full : ScopeStack)
    (hsub : names ⊆ names') : Below (⟨kind, names⟩ :: full) (⟨kind, names'⟩ :: full) :=
  .cons ⟨rfl, hsub⟩ (refl full)

end Below

end ScopeStack

/-! ### Traversals below full scopes -/

namespace Trace

/-- From scopes below `pre` a traversal comes to scopes below `post`, and gives what `Q` tells. -/
def Leads {α : Type} (pre post : ScopeStack) (m : Trace α) (Q : α → Prop) : Prop :=
  ∀ s : Tracing, s.scopes.Below pre → (m s).2.scopes.Below post ∧ Q (m s).1

/-- A traversal keeps its scopes below `full`. -/
abbrev Keeps {α : Type} (full : ScopeStack) (m : Trace α) (Q : α → Prop) : Prop := Leads full full m Q

variable {α β : Type} {pre mid post full : ScopeStack} {m : Trace α} {k : α → Trace β}
  {Q : α → Prop} {R : β → Prop}

theorem Leads.pure {a : α} (h : Q a) : Keeps full (pure a) Q := fun _ hs => ⟨hs, h⟩

theorem Leads.bind (h : Leads pre mid m Q) (hk : ∀ a, Q a → Leads mid post (k a) R) :
    Leads pre post (m >>= k) R := fun s hs =>
  hk (m s).1 (h s hs).2 (m s).2 (h s hs).1

theorem Leads.raise (hpre : pre.Below mid) (h : Leads mid post m Q) : Leads pre post m Q :=
  fun s hs => h s (hs.trans hpre)

theorem Leads.imp {Q' : α → Prop} (h : Leads pre post m Q) (hQ : ∀ a, Q a → Q' a) : Leads pre post m Q' :=
  fun s hs => ⟨(h s hs).1, hQ _ (h s hs).2⟩

/-- What is given is given from some state. -/
theorem Leads.traced (h : Leads pre post m Q) :
    Leads pre post m fun a => Q a ∧ ∃ s, result m s = a :=
  fun s hs => ⟨(h s hs).1, (h s hs).2, s, rfl⟩

/-- What is equal of all results is equal of what is given. -/
theorem Leads.and_eq {γ : Type} {g : α → γ} {c : γ} (h : Leads pre post m Q)
    (hg : ∀ s, g (result m s) = c) : Leads pre post m fun a => Q a ∧ g a = c :=
  fun s hs => ⟨(h s hs).1, (h s hs).2, hg s⟩

/-- The innermost scope may grow, and is left at the end. -/
theorem Leads.inScope {enter : ScopeStack → ScopeStack} (inner : Scope)
    (henter : ∀ {s : ScopeStack}, s.Below full → (enter s).Below pre)
    (h : Leads pre (inner :: full) m Q) : Keeps full (inScope enter m) Q := by
  intro s hs
  obtain ⟨hb, hQ⟩ := h { s with scopes := enter s.scopes } (henter hs)
  exact ⟨hb.pop, hQ⟩

theorem Leads.inBlock {names : List String} (h : Keeps (⟨.block, names⟩ :: full) m Q) :
    Keeps full (inBlock m) Q :=
  .inScope ⟨.block, names⟩ (·.push .block names) h

/-- The scope of a function has its parameters at first, and more names in the end. -/
theorem Leads.inFunction {params : List String} (names : List String)
    (h : Leads (⟨.function, params⟩ :: full) (⟨.function, names⟩ :: full) m Q) :
    Keeps full (inFunction params m) Q :=
  .inScope ⟨.function, names⟩ (·.pushFunction params) h

/-! ### Traversals from any scopes -/

/-- From every state a traversal gives what `Q` tells. -/
def Gives {α : Type} (m : Trace α) (Q : α → Prop) : Prop := ∀ s, Q (result m s)

theorem Gives.pure {a : α} (h : Q a) : Gives (pure a) Q := fun _ => h

theorem Gives.bind (h : Gives m Q) (hk : ∀ a, Q a → Gives (k a) R) : Gives (m >>= k) R :=
  fun s => hk _ (h s) (m s).2

theorem Gives.traced (h : Gives m Q) : Gives m fun a => Q a ∧ ∃ s, result m s = a :=
  fun s => ⟨h s, s, rfl⟩

theorem Gives.inScope (enter : ScopeStack → ScopeStack) (h : Gives m Q) : Gives (inScope enter m) Q :=
  fun _ => h _

theorem Gives.inBlock (h : Gives m Q) : Gives (inBlock m) Q := .inScope (·.push .block) h

theorem Gives.inFunction {params : List String} (h : Gives m Q) : Gives (inFunction params m) Q :=
  .inScope (·.pushFunction params) h

end Trace

end StepTrace.Script
