import Mathlib.Data.List.Induction
import StepTrace.Proofs.Files.Sound
import StepTrace.Sources.Select

/-!
What the instrumented text of a file is called. A file with types comes out under a name of its own stem,
so two files may come out under one name; but then one of them is called what the other comes out as.
-/
namespace StepTrace

namespace Path

/-! ### Another extension -/

/-- Names stand between slashes: what stands before the last one does not depend on it. -/
theorem text_ofNames_append (dir : List String) :
    ∃ before, ∀ name, (ofNames (dir ++ [name])).text = before ++ name := by
  induction dir with
  | nil => exact ⟨"", fun name => by simp [ofNames]⟩
  | cons s dir ih =>
    obtain ⟨before, hb⟩ := ih
    refine ⟨s ++ "/" ++ before, fun name => ?_⟩
    obtain ⟨t, names, hd⟩ := List.exists_cons_of_ne_nil (List.append_ne_nil_of_right_ne_nil dir
      (List.cons_ne_nil name []))
    have hrest : "/".intercalate (t :: names) = before ++ name := hd ▸ hb name
    rw [List.cons_append, hd, ofNames, String.intercalate_cons_cons, hrest]
    simp only [String.append_assoc]

theorem dropTail_of_isName {name : String} (h : IsName name) (r : List Char) :
    dropTail (name.toList.reverse ++ r) = name.toList.reverse ++ r := by
  have hslash : '/' ∉ name.toList.reverse := by simpa using h.no_slash
  have hdot : name.toList.reverse ≠ ['.'] := by
    intro hr
    have hl := congrArg List.reverse hr
    rw [List.reverse_reverse] at hl
    exact h.ne_current (String.toList_injective hl)
  cases hn : name.toList.reverse with
  | nil => exact absurd (by simpa using hn) h.ne_empty
  | cons c cs =>
    rw [hn] at hslash hdot
    cases cs with
    | nil => 
      unfold dropTail
      split <;> simp_all
    | cons c' cs =>
      unfold dropTail
      split <;> simp_all

theorem fileName?_ofNames {dir : List String} {name : String} (h : ∀ s ∈ dir ++ [name], IsName s) :
    (ofNames (dir ++ [name])).fileName? = some name := by
  simp [fileName?, (components_ofNames h).2]

/-- Another extension changes the last name alone. -/
theorem withExtension_ofNames {dir : List String} {stem extension : List Char} (hs : stem ≠ [])
    (he : '.' ∉ extension)
    (h : ∀ s ∈ dir ++ [String.ofList (stem ++ '.' :: extension)], IsName s) (new : String) :
    (ofNames (dir ++ [String.ofList (stem ++ '.' :: extension)])).withExtension new =
      ofNames (dir ++ [String.ofList stem ++ "." ++ new]) := by
  obtain ⟨before, hb⟩ := text_ofNames_append dir
  have hname := h _ (List.mem_append_right _ (List.mem_singleton.2 rfl))
  have hlen : (String.ofList (stem ++ '.' :: extension)).length - (String.ofList stem).length =
      (extension.reverse ++ ['.']).length := by
    simp only [String.length_ofList, List.length_append, List.length_cons, List.length_reverse,
      List.length_nil]
    omega
  have hrev : (before ++ String.ofList (stem ++ '.' :: extension)).toList.reverse =
      (String.ofList (stem ++ '.' :: extension)).toList.reverse ++ before.toList.reverse := by simp
  have hsplit : (String.ofList (stem ++ '.' :: extension)).toList.reverse ++ before.toList.reverse =
      (extension.reverse ++ ['.']) ++ (stem.reverse ++ before.toList.reverse) := by simp
  have htext : ∀ n, ofNames (dir ++ [n]) = ⟨before ++ n⟩ := fun n => congrArg Path.mk (hb n)
  rw [withExtension, fileName?_ofNames h]
  simp only [splitName_of_dot hs he, hb, hrev, dropTail_of_isName hname, hlen]
  rw [hsplit, List.drop_left, htext]
  simp [String.append_assoc, String.ofList_append]

theorem ofNames_injective {a b : List String} (ha : ∀ s ∈ a, IsName s) (hb : ∀ s ∈ b, IsName s)
    (h : ofNames a = ofNames b) : a = b := by
  have hc : a.map Component.name = b.map Component.name := by
    rw [← (components_ofNames ha).2, h, (components_ofNames hb).2]
  exact (List.map_inj_right fun _ _ => Component.name.inj).1 hc

/-- What stands behind a path is told by the whole. -/
theorem join_injective {p q r : Path} (hq : q.isAbsolute = false) (hr : r.isAbsolute = false)
    (h : p.join q = p.join r) : q = r := by
  have ht := congrArg Path.text h
  simp only [join, hq, hr, Bool.false_eq_true, if_false] at ht
  obtain ⟨q⟩ := q
  obtain ⟨r⟩ := r
  split at ht <;> simpa [String.append_assoc] using ht

theorem isAbsolute_ofNames {names : List String} (h : ∀ s ∈ names, IsName s) :
    (ofNames names).isAbsolute = false := by
  have hl := (components_ofNames h).1
  unfold lead at hl
  split at hl
  · cases hl
  · next ha => simpa using ha

end Path

namespace Sources

open StepTrace.Path

/-- What a file comes out as, below the output directory. -/
def plainPath (p : Path) : Path :=
  match p.extension?.bind plainExtension? with
  | some e => p.withExtension e
  | none => p

theorem outputPath_eq (out p : Path) : outputPath out p = out.join (plainPath p) := by
  unfold outputPath plainPath
  cases p.extension?.bind plainExtension? <;> rfl

/-- The name of a file without types, in the place of its own. -/
def plainName (name : String) : String :=
  match (splitName name).2.bind plainExtension? with
  | some e => (splitName name).1 ++ "." ++ e
  | none => name

def plainNames (names : List String) : List String :=
  names.dropLast ++ names.getLast?.toList.map plainName

@[simp] theorem plainNames_append (dir : List String) (name : String) :
    plainNames (dir ++ [name]) = dir ++ [plainName name] := by
  simp [plainNames]

theorem plainExtension?_injective {a b e : String} (ha : plainExtension? a = some e)
    (hb : plainExtension? b = some e) : a = b := by
  unfold plainExtension? at ha hb
  split at ha <;> cases ha <;> split at hb <;> simp_all

theorem plainExtension?_idempotent {a e : String} (h : plainExtension? a = some e) :
    plainExtension? e = none := by
  unfold plainExtension? at h
  split at h <;> cases h <;> rfl

theorem no_dot_of_plainExtension? {a e : String} (h : plainExtension? a = some e) :
    '.' ∉ e.toList ∧ '/' ∉ e.toList ∧ e ≠ "" := by
  unfold plainExtension? at h
  split at h <;> cases h <;> decide

/-- A file keeps its name, or has types and gets the extension that goes with its own. -/
theorem plainName_cases (name : String) :
    plainName name = name ∨ ∃ stem extension new, stem ≠ [] ∧ '.' ∉ extension ∧
      name = String.ofList (stem ++ '.' :: extension) ∧
      plainExtension? (String.ofList extension) = some new ∧
      plainName name = String.ofList (stem ++ '.' :: new.toList) := by
  rcases splitName_cases name with hn | ⟨stem, extension, hs, he, rfl⟩
  · exact Or.inl (by simp [plainName, hn])
  · have hsplit := splitName_of_dot hs he
    cases hp : plainExtension? (String.ofList extension) with
    | none =>
      refine Or.inl ?_
      rw [plainName, hsplit]
      simp only [Option.bind_some, hp]
    | some new =>
      refine Or.inr ⟨stem, extension, new, hs, he, rfl, hp, String.toList_injective ?_⟩
      rw [plainName, hsplit]
      simp only [Option.bind_some, hp]
      simp

theorem isName_plainName {name : String} (h : IsName name) : IsName (plainName name) := by
  rcases plainName_cases name with hn | ⟨stem, extension, new, hs, -, rfl, hp, hn⟩
  · rw [hn]
    exact h
  · obtain ⟨-, hslash, hne⟩ := no_dot_of_plainExtension? hp
    have hold : '/' ∉ stem := fun hm => h.no_slash (by simp [hm])
    have hlong : 3 ≤ (String.ofList (stem ++ '.' :: new.toList)).length := by
      have hstem := List.length_pos_iff.2 hs
      have hnew := List.length_pos_iff.2 (mt String.toList_eq_nil_iff.1 hne)
      simp only [String.length_ofList, List.length_append, List.length_cons]
      omega
    have short : ∀ s : String, s.length < 3 → String.ofList (stem ++ '.' :: new.toList) ≠ s := by
      rintro s hs rfl
      omega
    rw [hn]
    refine ⟨short _ (by decide), short _ (by decide), short _ (by decide), ?_⟩
    rw [String.toList_ofList]
    simp [hold, hslash]

/-- What a file comes out as keeps its name. -/
theorem plainName_plainName (name : String) : plainName (plainName name) = plainName name := by
  rcases plainName_cases name with hn | ⟨stem, extension, new, hs, -, -, hp, hn⟩
  · rw [hn, hn]
  · rw [hn, plainName, splitName_of_dot hs (no_dot_of_plainExtension? hp).1, Option.bind_some,
      String.ofList_toList, plainExtension?_idempotent hp]

/-- Two names that come out alike are one, or one is what the other comes out as. -/
theorem plainName_eq_plainName {a b : String} (h : plainName a = plainName b) :
    a = b ∨ plainName a = b ∨ a = plainName b := by
  rcases plainName_cases a with ha | ⟨stem, ext, new, hs, he, rfl, hp, ha⟩
  · exact Or.inr (Or.inr (ha ▸ h))
  · rcases plainName_cases b with hb | ⟨stem', ext', new', hs', he', rfl, hp', hb⟩
    · exact Or.inr (Or.inl (hb ▸ h))
    · have hsplit := congrArg splitName (ha.symm.trans (h.trans hb))
      rw [splitName_of_dot hs (no_dot_of_plainExtension? hp).1,
        splitName_of_dot hs' (no_dot_of_plainExtension? hp').1] at hsplit
      obtain ⟨hstem, rfl⟩ : String.ofList stem = String.ofList stem' ∧ new = new' := by
        simpa using hsplit
      have hext := plainExtension?_injective hp hp'
      exact Or.inl (by rw [String.ofList_injective hstem, String.ofList_injective hext])

/-! ### Files below a directory -/

theorem isName_of_mem_plainNames {names : List String} (h : ∀ s ∈ names, IsName s) :
    ∀ s ∈ plainNames names, IsName s := by
  induction names using List.reverseRecOn with
  | nil => simp [plainNames]
  | append_singleton dir name _ =>
    obtain ⟨hdir, hname⟩ := List.forall_mem_append.1 h
    rw [plainNames_append]
    exact List.forall_mem_append.2 ⟨hdir, by simpa using isName_plainName (hname name (by simp))⟩

theorem plainNames_plainNames (names : List String) :
    plainNames (plainNames names) = plainNames names := by
  induction names using List.reverseRecOn with
  | nil => rfl
  | append_singleton dir name _ => simp [plainName_plainName]

theorem plainNames_eq_plainNames {a b : List String} (h : plainNames a = plainNames b) :
    a = b ∨ plainNames a = b ∨ a = plainNames b := by
  induction a using List.reverseRecOn with
  | nil => exact Or.inr (Or.inr h)
  | append_singleton dir m _ =>
    induction b using List.reverseRecOn with
    | nil => exact Or.inr (Or.inl h)
    | append_singleton dir' n _ =>
      rw [plainNames_append, plainNames_append] at h ⊢
      obtain ⟨rfl, hmn⟩ := List.append_inj' h rfl
      rcases plainName_eq_plainName (List.cons.inj hmn).1 with rfl | rfl | rfl
      · exact Or.inl rfl
      · exact Or.inr (Or.inl rfl)
      · exact Or.inr (Or.inr rfl)

theorem plainPath_ofNames {names : List String} (h : ∀ s ∈ names, IsName s) :
    plainPath (ofNames names) = ofNames (plainNames names) := by
  induction names using List.reverseRecOn with
  | nil => rfl
  | append_singleton dir name _ =>
    rw [plainNames_append, plainPath, extension?, fileName?_ofNames h, Option.bind_some, plainName]
    rcases splitName_cases name with hn | ⟨stem, extension, hs, he, rfl⟩
    · rw [hn]
      rfl
    · rw [splitName_of_dot hs he, Option.bind_some]
      cases plainExtension? (String.ofList extension) with
      | none => rfl
      | some new => exact withExtension_ofNames hs he h new

theorem outputPath_ofNames (out : Path) {names : List String} (h : ∀ s ∈ names, IsName s) :
    outputPath out (ofNames names) = out.join (ofNames (plainNames names)) := by
  rw [outputPath_eq, plainPath_ofNames h]

theorem location_outputPath (cwd : Location) (out : Path) {names : List String}
    (h : ∀ s ∈ names, IsName s) :
    (outputPath out (ofNames names)).location cwd = out.location cwd ++ plainNames names := by
  rw [outputPath_ofNames out h, location_join_ofNames cwd out (isName_of_mem_plainNames h)]

theorem plainPath_eq_iff {a b : List String} (ha : ∀ s ∈ a, IsName s) (hb : ∀ s ∈ b, IsName s) :
    plainPath (ofNames a) = plainPath (ofNames b) ↔ plainNames a = plainNames b := by
  rw [plainPath_ofNames ha, plainPath_ofNames hb]
  exact ⟨ofNames_injective (isName_of_mem_plainNames ha) (isName_of_mem_plainNames hb),
    congrArg ofNames⟩

/-- Files have one output just if they come out under one name. -/
theorem outputPath_eq_iff (out : Path) {a b : List String} (ha : ∀ s ∈ a, IsName s)
    (hb : ∀ s ∈ b, IsName s) :
    outputPath out (ofNames a) = outputPath out (ofNames b) ↔
      plainPath (ofNames a) = plainPath (ofNames b) := by
  have relative : ∀ {c}, (∀ s ∈ c, IsName s) → (plainPath (ofNames c)).isAbsolute = false := by
    intro c hc
    rw [plainPath_ofNames hc]
    exact isAbsolute_ofNames (isName_of_mem_plainNames hc)
  rw [outputPath_eq, outputPath_eq]
  exact ⟨join_injective (relative ha) (relative hb), congrArg out.join⟩

theorem location_outputPath_eq_iff {cwd : Location} {out : Path} {a b : List String}
    (ha : ∀ s ∈ a, IsName s) (hb : ∀ s ∈ b, IsName s) :
    (outputPath out (ofNames a)).location cwd = (outputPath out (ofNames b)).location cwd ↔
      plainPath (ofNames a) = plainPath (ofNames b) := by
  rw [location_outputPath cwd out ha, location_outputPath cwd out hb, List.append_cancel_left_eq,
    plainPath_eq_iff ha hb]

end Sources

end StepTrace
