import StepTrace.Proofs.Json.Position
import StepTrace.Proofs.Json.Reread

/-!
Values that JSON can hold. Whatever a text is read as is such a value, and its containers are nested no deeper than
the reader allows; and such a value comes back from its text if its floats do.
-/
namespace StepTrace.Json

/-- What a value has to be itself, whatever it holds: an integer has 64 bits, and no name occurs twice in an
object. -/
def Fits : Json → Prop
  | .int n => -(Nat.pow 2 63 : Int) ≤ n ∧ n < (Nat.pow 2 64 : Int)
  | .object members => Keyed.Distinct members
  | _ => True

/-- A value that JSON can hold. -/
def IsProper (v : Json) : Prop := ∀ p w, v.at? p = some w → w.Fits

/-- The floats in a value come back from their texts. -/
def FloatsReread (v : Json) : Prop := ∀ p x, v.at? p = some (.float x) → (Json.float x).IsReadable

theorem isProper_iff_children {v : Json} : v.IsProper ↔ v.Fits ∧ ∀ c ∈ v.children, c.IsProper :=
  forall_at?_iff

/-! ### Children -/

theorem isReadable_iff_children {v : Json} :
    v.IsReadable ↔ (v.Fits ∧ ∀ x, v = .float x → v.IsReadable) ∧ ∀ c ∈ v.children, c.IsReadable := by
  cases v with
  | array items => simp [IsReadable, areReadable_iff, Fits, children]
  | object members => simp [IsReadable, membersReadable_iff, Fits, children]
  | _ => simp [IsReadable, Fits, children]

/-- A value comes back from its text if it is one that JSON can hold and its floats come back. -/
theorem isReadable_iff {v : Json} : v.IsReadable ↔ v.IsProper ∧ v.FloatsReread := by
  have hat : v.IsReadable ↔ ∀ p w, v.at? p = some w → w.Fits ∧ ∀ x, w = .float x → w.IsReadable := by
    induction v using childInduction with
    | step v ih =>
      rw [isReadable_iff_children, forall_at?_iff]
      exact and_congr_right fun _ => forall₂_congr ih
  rw [hat]
  constructor
  · exact fun h => ⟨fun p w hw => (h p w hw).1, fun p x hx => (h p _ hx).2 x rfl⟩
  · rintro ⟨hproper, hfloats⟩ p w hw
    refine ⟨hproper p w hw, fun x hx => ?_⟩
    subst hx
    exact hfloats p x hw

/-! ### What is read -/

theorem Numeral.absorb_lt {n : Nat} (h : n < Nat.pow 2 64) (ds : List Nat) :
    (absorb n ds).1 < Nat.pow 2 64 := by
  induction ds generalizing n with
  | nil => exact h
  | cons d ds ih =>
    rw [absorb]
    split
    · next hd => exact ih hd
    · exact h

/-- A number is read as an integer of 64 bits or as a float. -/
theorem Numeral.value?_cases {n : Numeral} {v : Json} (h : n.value? = some v) :
    (∃ i, v = .int i ∧ v.Fits) ∨ ∃ x, v = .float x := by
  have hlt : (absorb 0 n.whole).1 < Nat.pow 2 64 := absorb_lt (by decide) n.whole
  have hfloat {negative : Bool} {y : Option Float} (h : y.map (signed negative) = some v) :
      ∃ x, v = .float x := by
    obtain ⟨x, -, rfl⟩ := Option.map_eq_some_iff.1 h
    exact ⟨_, rfl⟩
  unfold value? at h
  generalize absorb 0 n.whole = read at h hlt
  obtain ⟨significand, left⟩ := read
  simp only at h hlt
  split at h
  · split at h
    · cases h
      have hnonneg : -(Nat.pow 2 63 : Int) ≤ significand := by omega
      exact .inl ⟨_, rfl, hnonneg, Int.ofNat_lt.2 hlt⟩
    · split at h
      · exact .inr (hfloat h)
      · next hsmall =>
        cases h
        have hle : ¬Nat.pow 2 63 < significand := by simp_all
        have hpos : 0 < Nat.pow 2 64 := by decide
        exact .inl ⟨_, rfl, by omega, by omega⟩
  · exact .inr (hfloat h)

mutual

/-- What a tree stands for is a value that JSON can hold, with containers nested as deep as allowed. -/
theorem isProper_of_value? {limit : Nat} (r : Raw) {v : Json} (h : r.value? limit = some v) :
    v.IsProper ∧ v.depth ≤ limit := by
  have hscalar (hfits : v.Fits) (hchildren : v.children = []) : v.IsProper :=
    isProper_iff_children.2 ⟨hfits, by simp [hchildren]⟩
  cases r with
  | null =>
    cases h
    exact ⟨hscalar trivial rfl, Nat.zero_le _⟩
  | bool b =>
    cases h
    exact ⟨hscalar trivial rfl, Nat.zero_le _⟩
  | number n =>
    obtain ⟨i, rfl, hfits⟩ | ⟨x, rfl⟩ := Numeral.value?_cases h
    · exact ⟨hscalar hfits rfl, Nat.zero_le _⟩
    · exact ⟨hscalar trivial rfl, Nat.zero_le _⟩
  | text q =>
    obtain ⟨s, -, rfl⟩ := Option.map_eq_some_iff.1 h
    exact ⟨hscalar trivial rfl, Nat.zero_le _⟩
  | array items =>
    rw [Raw.value?] at h
    split at h
    · cases h
    · obtain ⟨vs, hvs, rfl⟩ := Option.map_eq_some_iff.1 h
      have hitems := isProper_of_values? items hvs
      have hdepth : depthOf vs ≤ limit - 1 := depthOf_le_iff.2 fun v hv => (hitems v hv).2
      refine ⟨isProper_iff_children.2 ⟨trivial, fun v hv => (hitems v hv).1⟩, ?_⟩
      rw [depth]
      omega
  | object members =>
    rw [Raw.value?] at h
    split at h
    · cases h
    · obtain ⟨ps, hps, rfl⟩ := Option.map_eq_some_iff.1 h
      have hmembers := isProper_of_members? members hps
      have hdepth : memberDepth (Keyed.ofList ps) ≤ limit - 1 :=
        memberDepth_le_iff.2 fun m hm => (hmembers m (Keyed.mem_of_mem_ofList hm)).2
      refine ⟨isProper_iff_children.2 ⟨Keyed.distinct_ofList ps, fun v hv => ?_⟩, ?_⟩
      · obtain ⟨m, hm, rfl⟩ := List.mem_map.1 hv
        exact (hmembers m (Keyed.mem_of_mem_ofList hm)).1
      · rw [depth]
        omega

theorem isProper_of_values? {limit : Nat} (rs : List Raw) {vs : List Json}
    (h : Raw.values? limit rs = some vs) : ∀ v ∈ vs, v.IsProper ∧ v.depth ≤ limit := by
  cases rs with
  | nil =>
    cases h
    exact nofun
  | cons r rs =>
    simp only [Raw.values?, Option.bind_eq_bind, Option.bind_eq_some_iff] at h
    obtain ⟨v, hv, vs, hvs, h⟩ := h
    cases h
    exact List.forall_mem_cons.2 ⟨isProper_of_value? r hv, isProper_of_values? rs hvs⟩

theorem isProper_of_members? {limit : Nat} (rs : List (Quoted × Raw)) {ms : List (String × Json)}
    (h : Raw.members? limit rs = some ms) : ∀ m ∈ ms, m.2.IsProper ∧ m.2.depth ≤ limit := by
  match rs with
  | [] =>
    cases h
    exact nofun
  | (name, r) :: rs =>
    simp only [Raw.members?, Option.bind_eq_bind, Option.bind_eq_some_iff] at h
    obtain ⟨s, -, v, hv, ms, hms, h⟩ := h
    cases h
    exact List.forall_mem_cons.2 ⟨isProper_of_value? r hv, isProper_of_members? rs hms⟩

end

end StepTrace.Json
