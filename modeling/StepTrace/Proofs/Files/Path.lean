import StepTrace.Files.Disk

/-!
Paths by their components. Appending an ordinary name to a path appends one component; where a path leads
is told by its components alone, if it leads anywhere.
-/
namespace StepTrace

namespace Path

/-- A text that is one component, a name. -/
structure IsName (s : String) : Prop where
  ne_empty : s ≠ ""
  ne_current : s ≠ "."
  ne_parent : s ≠ ".."
  no_slash : '/' ∉ s.toList

theorem partsFrom_ne_nil (part cs : List Char) : partsFrom part cs ≠ [] := by
  induction cs generalizing part with
  | nil => simp [partsFrom]
  | cons c cs ih => by_cases hc : c = '/' <;> simp [partsFrom, hc, ih]

theorem partsFrom_append (part a b : List Char) :
    partsFrom part (a ++ '/' :: b) = partsFrom part a ++ partsFrom [] b := by
  induction a generalizing part with
  | nil => rfl
  | cons c a ih => by_cases hc : c = '/' <;> simp [partsFrom, hc, ih]

theorem partsFrom_of_no_slash (part : List Char) {cs : List Char} (h : '/' ∉ cs) :
    partsFrom part cs = [String.ofList (part.reverse ++ cs)] := by
  induction cs generalizing part with
  | nil => simp [partsFrom]
  | cons c cs ih =>
    obtain ⟨hc, hcs⟩ : '/' ≠ c ∧ '/' ∉ cs := by simpa using h
    simp [partsFrom, hc.symm, ih _ hcs]

/-- Two paths whose parts start alike, and differ then in parts that mean nothing in one of them. -/
theorem components_of_parts_append {p q : Path} (first last more : List String)
    (hq : q.parts = first ++ more) (hp : p.parts = first ++ last) (hne : first ≠ [])
    (hlast : last.filterMap componentOf? = []) (ha : q.isAbsolute = p.isAbsolute) :
    q.components = p.components ++ more.filterMap componentOf? := by
  have hl : q.lead = p.lead := by
    obtain ⟨f, fs, rfl⟩ := List.exists_cons_of_ne_nil hne
    simp [lead, ha, hq, hp]
  rw [components, components, hl, hq, hp, List.filterMap_append, List.filterMap_append, hlast]
  simp

/-- A path that starts with a part appends its components. -/
theorem components_join_of_lead (p : Path) {q : Path} (hq : q.lead = []) :
    (p.join q).components = p.components ++ q.components := by
  have habs : q.isAbsolute = false := by
    unfold lead at hq
    split at hq
    · cases hq
    · next h => simpa using h
  have hqc : q.components = q.parts.filterMap componentOf? := by rw [components, hq, List.nil_append]
  by_cases he : p.text = ""
  · have hp : p.components = [] := by
      obtain ⟨text⟩ := p
      subst he
      rfl
    have hj : p.join q = q := by simp [join, habs, he]
    rw [hj, hp, List.nil_append]
  · obtain ⟨c, cs, hne⟩ := List.exists_cons_of_ne_nil (mt String.toList_eq_nil_iff.1 he)
    rw [hqc]
    by_cases hl : p.text.toList.getLast? = some '/'
    · obtain ⟨t, ht⟩ := List.getLast?_eq_some_iff.1 hl
      have hj : (p.join q).text.toList = t ++ '/' :: q.text.toList := by simp [join, habs, ht]
      apply components_of_parts_append (partsFrom [] t) [""]
      · rw [parts, hj, partsFrom_append, parts]
      · rw [parts, ht, partsFrom_append]
        rfl
      · exact partsFrom_ne_nil _ _
      · rfl
      · cases t <;> simp [isAbsolute, hj, ht]
    · have hj : (p.join q).text.toList = p.text.toList ++ '/' :: q.text.toList := by
        simp [join, habs, he, hl]
      apply components_of_parts_append p.parts []
      · rw [parts, hj, partsFrom_append, parts, parts]
      · simp
      · exact partsFrom_ne_nil _ _
      · rfl
      · simp [isAbsolute, hj, hne]

theorem isAbsolute_of_isName {s : String} (hs : IsName s) : (⟨s⟩ : Path).isAbsolute = false := by
  cases hl : s.toList with
  | nil => simp [isAbsolute, hl]
  | cons c cs =>
    have hc : '/' ≠ c := fun h => hs.no_slash (by rw [hl, h]; exact List.mem_cons_self)
    simp [isAbsolute, hl, hc.symm]

/-- A name is a path of one component. -/
theorem components_of_isName {s : String} (hs : IsName s) :
    lead ⟨s⟩ = [] ∧ components ⟨s⟩ = [.name s] := by
  have hparts : parts ⟨s⟩ = [s] := by
    rw [parts, partsFrom_of_no_slash [] hs.no_slash]
    simp
  have hl : lead ⟨s⟩ = [] := by
    simp [lead, isAbsolute_of_isName hs, hparts, hs.ne_current]
  refine ⟨hl, ?_⟩
  simp [components, hl, hparts, componentOf?, hs.ne_empty, hs.ne_current, hs.ne_parent]

/-- A name that is appended to a path is its last component. -/
theorem components_join (p : Path) {s : String} (hs : IsName s) :
    (p.join ⟨s⟩).components = p.components ++ [.name s] := by
  obtain ⟨hl, hc⟩ := components_of_isName hs
  rw [components_join_of_lead p hl, hc]

/-- Appending to a path keeps its text in front. -/
theorem text_join {p : Path} {s : String} (hp : p.text ≠ "") (hs : IsName s) :
    ∃ t, (p.join ⟨s⟩).text = p.text ++ t := by
  have habs := isAbsolute_of_isName hs
  by_cases hl : p.text.toList.getLast? = some '/'
  · exact ⟨s, by simp [join, habs, hl]⟩
  · exact ⟨"/" ++ s, by simp [join, habs, hl, hp, String.append_assoc]⟩

theorem text_join_ne_empty (p : Path) {s : String} (hs : IsName s) : (p.join ⟨s⟩).text ≠ "" := by
  by_cases hp : p.text = ""
  · simpa [join, isAbsolute_of_isName hs, hp] using hs.ne_empty
  · obtain ⟨t, ht⟩ := text_join hp hs
    rw [ht]
    simp [hp]

/-! ### Names and their extensions -/

theorem splitName_of_dot {stem extension : List Char} (hs : stem ≠ []) (he : '.' ∉ extension) :
    splitName (String.ofList (stem ++ '.' :: extension)) =
      (String.ofList stem, some (String.ofList extension)) := by
  have hall : ∀ c ∈ extension.reverse, decide (c ≠ '.') = true := by
    intro c hc
    have hne : c ≠ '.' := by
      rintro rfl
      exact he (List.mem_reverse.1 hc)
    simpa using hne
  have hafter : (extension.reverse ++ '.' :: stem.reverse).takeWhile (· ≠ '.') =
      extension.reverse := by
    rw [List.takeWhile_append_of_pos hall]
    simp
  have hrev : (stem ++ '.' :: extension).reverse = extension.reverse ++ '.' :: stem.reverse := by simp
  have hdrop : (extension.reverse ++ '.' :: stem.reverse).drop extension.reverse.length =
      '.' :: stem.reverse := List.drop_left
  simp only [splitName, String.toList_ofList, hrev, hafter, hdrop]
  simp [hs]

/-- A name is all stem, or its extension stands after its last dot. -/
theorem splitName_cases (name : String) :
    splitName name = (name, none) ∨ ∃ stem extension, stem ≠ [] ∧ '.' ∉ extension ∧
      name = String.ofList (stem ++ '.' :: extension) := by
  have hafter : '.' ∉ name.toList.reverse.takeWhile (· ≠ '.') := by
    intro hm
    simpa using List.all_eq_true.1 (List.all_takeWhile (p := (· ≠ '.'))) _ hm
  have hname := List.prefix_iff_eq_append.1 (List.takeWhile_prefix (l := name.toList.reverse) (· ≠ '.'))
  simp only [splitName]
  generalize name.toList.reverse.takeWhile (· ≠ '.') = after at *
  generalize name.toList.reverse.drop after.length = rest at *
  split
  · next before =>
    split
    · exact Or.inl rfl
    · next hb =>
      have hl : name.toList = before.reverse ++ '.' :: after.reverse := by
        rw [← List.reverse_reverse name.toList, ← hname]
        simp
      refine Or.inr ⟨before.reverse, after.reverse, by simpa using hb, by simpa using hafter, ?_⟩
      rw [← hl, String.ofList_toList]
  · exact Or.inl rfl

/-! ### Where a path leads -/

namespace Component

/-- Where a component leads, as far as names go. -/
def target (here : Location) : Component → Location
  | root => []
  | current => here
  | parent => here.dropLast
  | name s => here ++ [s]

end Component

/-- Where a path leads from the working directory, as far as names go. -/
def location (cwd : Location) (p : Path) : Location := p.components.foldl Component.target cwd

theorem location_join (cwd : Location) (p : Path) {s : String} (hs : IsName s) :
    (p.join ⟨s⟩).location cwd = p.location cwd ++ [s] := by
  simp [location, components_join p hs, Component.target]

end Path

namespace Disk

theorem advance_eq {d : Disk} {here l : Location} {c : Path.Component}
    (h : d.advance here c = .ok l) : l = c.target here := by
  unfold advance at h
  cases he : d.entry? here with
  | none => simp [he] at h
  | some e =>
    cases e with
    | file bytes => simp [he] at h
    | dir => cases c <;> grind [Path.Component.target]

/-- A text that a path may have at all. -/
structure IsUsable (p : Path) : Prop where
  no_nul : '\x00' ∉ p.text.toList
  ne_empty : p.text ≠ ""
  size_lt : p.text.utf8ByteSize < pathLimit

theorem IsUsable.of_join {p : Path} {s : String} (hs : Path.IsName s) (hp : p.text ≠ "")
    (h : IsUsable (p.join ⟨s⟩)) : IsUsable p := by
  obtain ⟨t, ht⟩ := Path.text_join hp hs
  refine ⟨fun hn => h.no_nul ?_, hp, ?_⟩
  · simp [ht, hn]
  · have hsize := h.size_lt
    rw [ht, String.utf8ByteSize_append] at hsize
    omega

theorem resolve_eq_ok_iff {d : Disk} {p : Path} {l : Location} :
    d.resolve p = .ok l ↔ IsUsable p ∧ p.components.foldlM d.advance d.cwd = .ok l := by
  unfold resolve
  split
  · next h => exact ⟨nofun, fun hu => absurd (by simpa using h) hu.1.no_nul⟩
  · next hnul =>
    split
    · next h => exact ⟨nofun, fun hu => absurd h hu.1.ne_empty⟩
    · next hne =>
      split
      · next h => exact ⟨nofun, fun hu => absurd hu.1.size_lt (Nat.not_lt.2 h)⟩
      · next hs => exact ⟨fun h => ⟨⟨by simpa using hnul, hne, Nat.not_le.1 hs⟩, h⟩, And.right⟩

theorem foldlM_advance_eq {d : Disk} {cs : List Path.Component} {here l : Location}
    (h : cs.foldlM d.advance here = .ok l) : l = cs.foldl Path.Component.target here := by
  induction cs generalizing here with
  | nil => exact (Except.ok.inj h).symm
  | cons c cs ih =>
    rw [List.foldlM_cons] at h
    cases hc : d.advance here c with
    | error e =>
      rw [hc] at h
      cases h
    | ok next =>
      rw [hc] at h
      rw [List.foldl_cons, ← advance_eq hc]
      exact ih h

/-- A path that leads anywhere leads where its components say. -/
theorem resolve_eq {d : Disk} {p : Path} {l : Location} (h : d.resolve p = .ok l) :
    l = p.location d.cwd := foldlM_advance_eq (resolve_eq_ok_iff.1 h).2

theorem dir_of_advance {d : Disk} {here l : Location} {c : Path.Component}
    (h : d.advance here c = .ok l) : d.entry? here = some .dir := by
  unfold advance at h
  cases he : d.entry? here with
  | none => simp [he] at h
  | some e =>
    cases e with
    | file bytes => simp [he] at h
    | dir => rfl

/-- On the way that leads anywhere there are directories. -/
theorem dir_of_foldlM_advance {d : Disk} {cs rest : List Path.Component} {c : Path.Component}
    {start l : Location} (h : (cs ++ c :: rest).foldlM d.advance start = .ok l) :
    ∃ here, cs.foldlM d.advance start = .ok here ∧ d.entry? here = some .dir := by
  rw [List.foldlM_append] at h
  cases hh : cs.foldlM d.advance start with
  | error e =>
    rw [hh] at h
    cases h
  | ok here =>
    rw [hh] at h
    refine ⟨here, rfl, ?_⟩
    cases ha : d.advance here c with
    | error e => simp [bind, Except.bind, ha] at h
    | ok next => exact dir_of_advance ha

/-- A path that ends in a name leads anywhere only if there is a directory above it. -/
theorem resolve_of_join {d : Disk} {p : Path} {s : String} {l : Location} (hs : Path.IsName s)
    (hp : p.text ≠ "") (h : d.resolve (p.join ⟨s⟩) = .ok l) :
    ∃ here, d.resolve p = .ok here ∧ d.entry? here = some .dir := by
  obtain ⟨hu, hf⟩ := resolve_eq_ok_iff.1 h
  rw [Path.components_join p hs] at hf
  obtain ⟨here, hh, hdir⟩ := dir_of_foldlM_advance hf
  exact ⟨here, resolve_eq_ok_iff.2 ⟨hu.of_join hs hp, hh⟩, hdir⟩

/-- Above where a path leads there are directories. -/
theorem dir_of_resolve {d : Disk} {p : Path} {l : Location} (h : d.resolve p = .ok l)
    {cs rest : List Path.Component} {c : Path.Component} (hp : p.components = cs ++ c :: rest) :
    d.entry? (cs.foldl Path.Component.target d.cwd) = some .dir := by
  have hf := (resolve_eq_ok_iff.1 h).2
  rw [hp] at hf
  obtain ⟨here, hh, hdir⟩ := dir_of_foldlM_advance hf
  rw [← foldlM_advance_eq hh]
  exact hdir

end Disk
end StepTrace
