import StepTrace.Proofs.Files.Path

/-!
Paths that are put together from components. A path has few kinds of components, in few places, so from
those that come first a path can be written that has just these. So the paths above a path lead where its
way leads.
-/
namespace StepTrace

namespace Path

namespace Component

/-- A component that may stand anywhere in a path. -/
def IsPart : Component → Prop
  | parent => True
  | name s => IsName s
  | _ => False

theorem IsPart.no_slash {c : Component} (h : c.IsPart) : '/' ∉ c.text.toList := by
  cases c with
  | parent => decide
  | name s => exact IsName.no_slash h
  | _ => cases h

theorem IsPart.componentOf?_eq {c : Component} (h : c.IsPart) : componentOf? c.text = some c := by
  cases c with
  | parent => rfl
  | name s =>
    simp [componentOf?, text, IsName.ne_empty h, IsName.ne_current h, IsName.ne_parent h]
  | _ => cases h

end Component

/-- Components as a path has them: after the first one there are parts alone. -/
structure AreSpelled (cs : List Component) : Prop where
  head : ∀ c ∈ cs.head?, c = .root ∨ c = .current ∨ c.IsPart
  tail : ∀ c ∈ cs.tail, c.IsPart

theorem AreSpelled.of_parts {cs : List Component} (h : ∀ c ∈ cs, c.IsPart) : AreSpelled cs :=
  ⟨fun c hc => Or.inr (Or.inr (h c (List.mem_of_mem_head? hc))),
    fun c hc => h c (List.mem_of_mem_tail hc)⟩

theorem AreSpelled.of_prefix {cs ds : List Component} (h : AreSpelled ds) (hp : cs <+: ds) :
    AreSpelled cs := by
  obtain ⟨rest, rfl⟩ := hp
  cases cs with
  | nil => exact ⟨by simp, by simp⟩
  | cons c cs => exact ⟨by simpa using h.head, fun d hd => h.tail d (by simp; exact Or.inl hd)⟩

/-! ### The parts of a text -/

theorem no_slash_of_mem_partsFrom {part cs : List Char} (hp : '/' ∉ part) :
    ∀ s ∈ partsFrom part cs, '/' ∉ s.toList := by
  induction cs generalizing part with
  | nil => simpa [partsFrom] using hp
  | cons c cs ih =>
    by_cases hc : c = '/'
    · subst hc
      simp only [partsFrom, List.forall_mem_cons]
      exact ⟨by simpa using hp, ih (by simp)⟩
    · simp only [partsFrom]
      exact ih (by simpa [Ne.symm hc] using hp)

/-- Texts without slashes are the parts of the text that they make with slashes between them. -/
theorem partsFrom_intercalate {names : List String} (hne : names ≠ [])
    (h : ∀ s ∈ names, '/' ∉ s.toList) : partsFrom [] ("/".intercalate names).toList = names := by
  induction names with
  | nil => exact absurd rfl hne
  | cons s names ih =>
    obtain ⟨hs, hrest⟩ := List.forall_mem_cons.1 h
    cases names with
    | nil => simp [partsFrom_of_no_slash [] hs]
    | cons t names =>
      have hslash : ("/" : String).toList = ['/'] := rfl
      rw [String.intercalate_cons_cons, String.toList_append, String.toList_append, hslash,
        List.append_assoc, List.singleton_append, partsFrom_append, ih (by simp) hrest,
        partsFrom_of_no_slash [] hs]
      simp

theorem isPart_of_componentOf? {part : String} {c : Component} (hs : '/' ∉ part.toList)
    (h : componentOf? part = some c) : c.IsPart := by
  unfold componentOf? at h
  split at h
  · cases h
  · next hne =>
    split at h
    · cases h
      trivial
    · next hp =>
      cases h
      rw [not_or] at hne
      exact ⟨hne.1, hne.2, hp, hs⟩

theorem areSpelled_components (p : Path) : AreSpelled p.components := by
  have parts : ∀ c ∈ p.parts.filterMap componentOf?, c.IsPart := by
    intro c hc
    obtain ⟨s, hs, hsc⟩ := List.mem_filterMap.1 hc
    exact isPart_of_componentOf? (no_slash_of_mem_partsFrom (by simp) s hs) hsc
  unfold components lead
  split
  · exact ⟨by simp, by simpa using parts⟩
  · split
    · exact ⟨by simp, by simpa using parts⟩
    · simpa using AreSpelled.of_parts parts

theorem isName_of_mem_components {p : Path} {s : String} (h : .name s ∈ p.components) : IsName s := by
  have hs := p.areSpelled_components
  cases hc : p.components with
  | nil => simp [hc] at h
  | cons c cs =>
    rw [hc] at h hs
    rcases List.mem_cons.1 h with rfl | h
    · rcases hs.head _ rfl with hn | hn | hn
      · cases hn
      · cases hn
      · exact hn
    · exact hs.tail _ h

/-- The parts of a path are told by its text. -/
theorem filterMap_componentOf?_texts {cs : List Component} (h : ∀ c ∈ cs, c.IsPart) :
    (cs.map Component.text).filterMap componentOf? = cs := by
  induction cs with
  | nil => rfl
  | cons c cs ih =>
    obtain ⟨hc, hcs⟩ := List.forall_mem_cons.1 h
    simp [hc.componentOf?_eq, ih hcs]

/-! ### Paths from components -/

theorem head?_texts {cs : List Component} (h : ∀ c ∈ cs, c.IsPart) :
    (cs.map Component.text).head? ≠ some "" ∧ (cs.map Component.text).head? ≠ some "." := by
  cases cs with
  | nil => simp
  | cons c cs =>
    have hc := h c List.mem_cons_self
    cases c with
    | parent => simp [Component.text]
    | name s =>
      have hs : IsName s := hc
      simpa [Component.text] using ⟨hs.ne_empty, hs.ne_current⟩
    | _ => cases hc

/-- A text whose first part holds something does not start with a slash. -/
theorem isAbsolute_intercalate {s : String} {names : List String} (hs : '/' ∉ s.toList)
    (hne : s ≠ "") : isAbsolute ⟨"/".intercalate (s :: names)⟩ = false := by
  obtain ⟨c, cs, hl⟩ := List.exists_cons_of_ne_nil (mt String.toList_eq_nil_iff.1 hne)
  have hc : c ≠ '/' := fun h => hs (by rw [hl, h]; exact List.mem_cons_self)
  cases names with
  | nil => simp [isAbsolute, hl, hc]
  | cons t names => simp [isAbsolute, String.intercalate_cons_cons, hl, hc]

/-- The path that is written from the components of a path has these components. -/
theorem components_ofComponents {cs : List Component} (h : AreSpelled cs) :
    (ofComponents cs).components = cs := by
  have slashes : ∀ ds : List Component, (∀ c ∈ ds, c.IsPart) →
      ∀ s ∈ ds.map Component.text, '/' ∉ s.toList := by
    intro ds hds s hs
    obtain ⟨c, hc, rfl⟩ := List.mem_map.1 hs
    exact (hds c hc).no_slash
  cases cs with
  | nil => rfl
  | cons c cs =>
    have htail : ∀ d ∈ cs, d.IsPart := h.tail
    have relative : c ≠ .root → (∀ d ∈ c :: cs, '/' ∉ d.text.toList) → c.text ≠ "" →
        (ofComponents (c :: cs)).components =
          (if c.text = "." then [.current] else []) ++
            ((c :: cs).map Component.text).filterMap componentOf? := by
      intro hc hslash hne
      have hof : ofComponents (c :: cs) = ⟨"/".intercalate ((c :: cs).map Component.text)⟩ := by
        cases c with
        | root => exact absurd rfl hc
        | _ => rfl
      have habs : (ofComponents (c :: cs)).isAbsolute = false := by
        rw [hof]
        exact isAbsolute_intercalate (hslash c List.mem_cons_self) hne
      have hparts : (ofComponents (c :: cs)).parts = (c :: cs).map Component.text := by
        rw [hof]
        refine partsFrom_intercalate (by simp) fun s hs => ?_
        obtain ⟨d, hd, rfl⟩ := List.mem_map.1 hs
        exact hslash d hd
      simp [components, lead, habs, hparts]
    rcases h.head c rfl with rfl | rfl | hc
    · have hparts : (ofComponents (.root :: cs)).parts =
          "" :: partsFrom [] ("/".intercalate (cs.map Component.text)).toList := by
        simp [ofComponents, parts, partsFrom]
      have habs : (ofComponents (.root :: cs)).isAbsolute = true := by
        simp [ofComponents, isAbsolute]
      have hrest : (partsFrom [] ("/".intercalate (cs.map Component.text)).toList).filterMap
          componentOf? = cs := by
        by_cases hcs : cs = []
        · subst hcs
          rfl
        · rw [partsFrom_intercalate (by simpa using hcs) (slashes cs htail),
            filterMap_componentOf?_texts htail]
      rw [components, lead, habs, hparts]
      simpa [componentOf?] using hrest
    · rw [relative (by simp) (List.forall_mem_cons.2 ⟨by decide, fun d hd => (htail d hd).no_slash⟩)
        (by decide)]
      simpa [Component.text, componentOf?] using filterMap_componentOf?_texts htail
    · have hall : ∀ d ∈ c :: cs, d.IsPart := List.forall_mem_cons.2 ⟨hc, htail⟩
      have hroot : c ≠ .root := by
        rintro rfl
        cases hc
      obtain ⟨hne, hdot⟩ := head?_texts hall
      rw [relative hroot (fun d hd => (hall d hd).no_slash) (by simpa using hne),
        if_neg (by simpa using hdot), filterMap_componentOf?_texts hall]
      rfl

/-! ### Names -/

/-- A path of names has them as its components, and may be appended to any path. -/
theorem components_ofNames {names : List String} (h : ∀ s ∈ names, IsName s) :
    (ofNames names).lead = [] ∧ (ofNames names).components = names.map .name := by
  have hof : ofNames names = ofComponents (names.map .name) := by
    have hmap : (names.map Component.name).map Component.text = names := by
      simp [Function.comp_def, Component.text]
    cases names <;> simp_all [ofNames, ofComponents]
  have hparts : ∀ c ∈ names.map Component.name, c.IsPart := by
    intro c hc
    obtain ⟨s, hs, rfl⟩ := List.mem_map.1 hc
    exact h s hs
  have hc : (ofNames names).components = names.map .name := by
    rw [hof, components_ofComponents (.of_parts hparts)]
  refine ⟨?_, hc⟩
  have hlead : ∀ c ∈ (ofNames names).lead, c ∈ names.map Component.name := by
    intro c hl
    rw [← hc, components]
    exact List.mem_append_left _ hl
  unfold lead at hlead ⊢
  split
  · simp_all
  · split <;> simp_all

theorem foldl_target_names (here : Location) (names : List String) :
    (names.map Component.name).foldl Component.target here = here ++ names := by
  induction names generalizing here with
  | nil => simp
  | cons s names ih => simp [ih, Component.target]

theorem location_join_ofNames (cwd : Location) (p : Path) {names : List String}
    (h : ∀ s ∈ names, IsName s) : (p.join (ofNames names)).location cwd = p.location cwd ++ names := by
  obtain ⟨hl, hc⟩ := components_ofNames h
  rw [location, components_join_of_lead p hl, hc, List.foldl_append, foldl_target_names]
  rfl

/-! ### The paths above a path -/

/-- The paths above a path are those of its first components. -/
theorem components_of_mem_ancestors {p q : Path} (h : q ∈ p.ancestors) :
    q.components <+: p.components := by
  rcases List.mem_cons.1 h with rfl | h
  · exact List.prefix_rfl
  · obtain ⟨n, -, hn⟩ := List.mem_filterMap.1 h
    split at hn
    · cases hn
    · cases hn
      have hp := List.take_prefix n p.components
      rw [components_ofComponents (p.areSpelled_components.of_prefix hp)]
      exact hp

/-- What stands first in two lists one after the other stands first in one of them, or goes on into the
other. -/
theorem prefix_append_cases {α : Type} {l a b : List α} (h : l <+: a ++ b) :
    l <+: a ∨ ∃ m, m ≠ [] ∧ m <+: b ∧ l = a ++ m := by
  obtain ⟨r, hr⟩ := h
  rcases List.append_eq_append_iff.1 hr with ⟨m, rfl, -⟩ | ⟨m, rfl, rfl⟩
  · exact Or.inl (List.prefix_append l m)
  · by_cases hm : m = []
    · subst hm
      exact Or.inl (by simp)
    · exact Or.inr ⟨m, hm, List.prefix_append m r, rfl⟩

end Path

end StepTrace
