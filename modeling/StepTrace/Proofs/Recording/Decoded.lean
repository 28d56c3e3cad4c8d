import StepTrace.Proofs.Json.Position
import StepTrace.Proofs.Recording.Captured
import StepTrace.Recording.Marker

/-!
What decoding does to a value. A marker becomes its text, wherever no other one stands around it, and all else
keeps its form; so only a value without markers stays as it is. A text that comes under the key of markers can
make a marker of an object that was none, and in no other way is one left. What is kept of a binding is its
decoded value, also where the marker says that the read failed.
-/
namespace StepTrace.Recording

namespace Marker

/-- An object with a text under the key of markers. -/
def IsMarker (v : Json) : Prop := ∃ tag, v.member? markerKey = some (.text tag)

theorem tagOf?_eq_some_iff {members : Members} {tag : String} :
    tagOf? members = some tag ↔ members.get? markerKey = some (.text tag) := by
  rw [tagOf?]
  cases members.get? markerKey with
  | none => simp
  | some v => cases v <;> simp [Json.text?]

theorem tagOf?_eq_none_iff {members : Members} :
    tagOf? members = none ↔ ¬IsMarker (.object members) := by
  simp [Option.eq_none_iff_forall_ne_some, tagOf?_eq_some_iff, IsMarker, Json.member?]

/-! ### A value and its children -/

theorem decodeAll_eq_map (items : List Json) : decodeAll items = items.map decode := by
  induction items with
  | nil => rfl
  | cons v r ih => rw [decodeAll, ih, List.map_cons]

theorem decodeMembers_eq_map (members : Members) :
    decodeMembers members = members.map fun m => (m.1, decode m.2) := by
  induction members with
  | nil => rfl
  | cons m r ih =>
    obtain ⟨name, v⟩ := m
    rw [decodeMembers, ih, List.map_cons]

theorem decode_array (items : List Json) : decode (.array items) = .array (items.map decode) := by
  rw [decode, decodeAll_eq_map]

theorem decode_object {members : Members} (h : ¬IsMarker (.object members)) :
    decode (.object members) = .object (members.map fun m => (m.1, decode m.2)) := by
  simp [decode, tagOf?_eq_none_iff.2 h, decodeMembers_eq_map]

theorem decode_of_isMarker {v : Json} (h : IsMarker v) :
    ∃ members tag, v = .object members ∧ tagOf? members = some tag ∧ decode v = .text (text tag members) := by
  obtain ⟨tag, h⟩ := h
  cases v with
  | object members =>
    have htag : tagOf? members = some tag := tagOf?_eq_some_iff.2 h
    exact ⟨members, tag, rfl, htag, by simp [decode, htag]⟩
  | _ => cases h

/-- Only markers become texts. -/
theorem eq_or_isMarker_of_decode {v : Json} {s : String} (h : decode v = .text s) :
    v = .text s ∨ IsMarker v := by
  by_cases hv : IsMarker v
  · exact .inr hv
  · cases v with
    | array items => simp [decode_array] at h
    | object members => simp [decode_object hv] at h
    | _ => exact .inl h

theorem children_decode {v : Json} (h : ¬IsMarker v) : (decode v).children = v.children.map decode := by
  cases v with
  | array items => simp [decode_array, Json.children]
  | object members => simp [decode_object h, Json.children, Function.comp_def]
  | _ => rfl

/-! ### Positions -/

/-- There is no marker around a position. -/
def Exposed (v : Json) (p : List Nat) : Prop :=
  ∀ q w, q <+: p → q ≠ p → v.at? q = some w → ¬IsMarker w

theorem exposed_nil (v : Json) : Exposed v [] := by
  intro q w hq hne
  exact absurd (List.prefix_nil.1 hq) hne

theorem exposed_cons_iff {v w : Json} {i : Nat} (h : v.children[i]? = some w) (p : List Nat) :
    Exposed v (i :: p) ↔ ¬IsMarker v ∧ Exposed w p := by
  constructor
  · intro hv
    refine ⟨hv [] v List.nil_prefix (List.cons_ne_nil i p).symm rfl, ?_⟩
    intro q u hq hne hu
    have hdown : v.at? (i :: q) = some u := Json.at?_cons_eq_some_iff.2 ⟨w, h, hu⟩
    exact hv (i :: q) u ((List.prefix_cons_inj i).2 hq) (by simpa using hne) hdown
  · rintro ⟨hv, hw⟩ q u hq hne hu
    cases q with
    | nil =>
      cases hu
      exact hv
    | cons j q =>
      obtain ⟨rfl, hprefix⟩ := List.cons_prefix_cons.1 hq
      obtain ⟨w', hw', hu⟩ := Json.at?_cons_eq_some_iff.1 hu
      obtain rfl : w = w' := Option.some.inj (h.symm.trans hw')
      exact hw q u hprefix (by simpa using hne) hu

/-- A decoded value has the exposed positions of the value, and at each of them the decoded value of what was
there. -/
theorem at?_decode {v w : Json} {p : List Nat} :
    (decode v).at? p = some w ↔ ∃ u, v.at? p = some u ∧ Exposed v p ∧ decode u = w := by
  induction p generalizing v with
  | nil => simp [exposed_nil]
  | cons i p ih =>
    simp only [Json.at?_cons_eq_some_iff]
    by_cases hv : IsMarker v
    · -- below a marker no position is exposed, and its text has no children
      obtain ⟨members, tag, -, -, htext⟩ := decode_of_isMarker hv
      rw [htext]
      constructor
      · rintro ⟨u, hu, -⟩
        cases hu
      · rintro ⟨u, ⟨c, hc, -⟩, hexposed, -⟩
        exact absurd hv ((exposed_cons_iff hc p).1 hexposed).1
    · rw [children_decode hv]
      constructor
      · rintro ⟨c', hc', hw⟩
        obtain ⟨c, hc, rfl⟩ : ∃ c, v.children[i]? = some c ∧ decode c = c' := by simpa using hc'
        obtain ⟨u, hu, hexposed, hdecode⟩ := ih.1 hw
        exact ⟨u, ⟨c, hc, hu⟩, (exposed_cons_iff hc p).2 ⟨hv, hexposed⟩, hdecode⟩
      · rintro ⟨u, ⟨c, hc, hu⟩, hexposed, hdecode⟩
        have hbelow : Exposed c p := ((exposed_cons_iff hc p).1 hexposed).2
        exact ⟨decode c, by simp [hc], ih.2 ⟨u, hu, hbelow, hdecode⟩⟩

/-! ### Values without markers -/

mutual

/-- Nothing in a value is taken for a marker. -/
def IsFree : Json → Prop
  | .array items => AreFree items
  | .object members => tagOf? members = none ∧ MembersFree members
  | .null | .bool _ | .int _ | .float _ | .text _ => True

def AreFree : List Json → Prop
  | [] => True
  | v :: r => IsFree v ∧ AreFree r

def MembersFree : List (String × Json) → Prop
  | [] => True
  | (_, v) :: r => IsFree v ∧ MembersFree r

end

theorem areFree_iff {items : List Json} : AreFree items ↔ ∀ v ∈ items, IsFree v := by
  induction items with
  | nil => simp [AreFree]
  | cons v r ih => simp [AreFree, ih]

theorem membersFree_iff {members : Members} :
    MembersFree members ↔ ∀ v ∈ members.map Prod.snd, IsFree v := by
  induction members with
  | nil => simp [MembersFree]
  | cons m r ih => simp [MembersFree, ih]

theorem isFree_iff_children {v : Json} : IsFree v ↔ ¬IsMarker v ∧ ∀ w ∈ v.children, IsFree w := by
  cases v with
  | array items => simp [IsFree, areFree_iff, IsMarker, Json.member?, Json.children]
  | object members => simp only [IsFree, membersFree_iff, tagOf?_eq_none_iff, Json.children]
  | _ => simp [IsFree, IsMarker, Json.member?, Json.children]

/-- A value is free if there is no marker at any of its positions. -/
theorem isFree_iff_at? {v : Json} : IsFree v ↔ ∀ p w, v.at? p = some w → ¬IsMarker w := by
  induction v using Json.childInduction with
  | step v ih =>
    rw [isFree_iff_children, Json.forall_at?_iff]
    exact and_congr_right fun _ => forall₂_congr ih

theorem decode_of_isFree {v : Json} (h : IsFree v) : decode v = v := by
  induction v using Json.childInduction with
  | step v ih =>
    obtain ⟨hv, hchildren⟩ := isFree_iff_children.1 h
    have hsame : ∀ c ∈ v.children, decode c = c := fun c hc => ih c hc (hchildren c hc)
    cases v with
    | array items =>
      have hitems : items.map decode = items.map id := List.map_congr_left hsame
      rw [decode_array, hitems, List.map_id]
    | object members =>
      have hmembers : members.map (fun m => (m.1, decode m.2)) = members.map id :=
        List.map_congr_left fun m hm => congrArg (m.1, ·) (hsame m.2 (List.mem_map_of_mem hm))
      rw [decode_object hv, hmembers, List.map_id]
    | _ => rfl

/-- Only a free value stays as it is. -/
theorem decode_eq_self_iff {v : Json} : decode v = v ↔ IsFree v := by
  refine ⟨fun h => isFree_iff_at?.2 fun p w hw hmarker => ?_, decode_of_isFree⟩
  -- what is at a position would be there after decoding, and so would be its own text
  have hthere : (decode v).at? p = some w := by rw [h, hw]
  obtain ⟨u, hu, -, hdecode⟩ := at?_decode.1 hthere
  obtain rfl : u = w := Option.some.inj (hu.symm.trans hw)
  obtain ⟨members, tag, rfl, -, htext⟩ := decode_of_isMarker hmarker
  cases htext.symm.trans hdecode

/-! ### What is changed -/

/-- Arrays of the same length, objects with the same names in the same order, or the same scalar. -/
def SameForm : Json → Json → Prop
  | .array items, .array items' => items.length = items'.length
  | .object members, .object members' => Keyed.keys members = Keyed.keys members'
  | v, w => v = w

theorem sameForm_decode {v : Json} (h : ¬IsMarker v) : SameForm v (decode v) := by
  cases v with
  | array items => simp [decode_array, SameForm]
  | object members => simp [decode_object h, SameForm, Keyed.keys, Function.comp_def]
  | _ => rfl

/-- Decoding leaves a value as it is just if there is no marker anywhere in it. At a position without a marker
around it, a marker is replaced by its text, and everything else keeps its form. -/
theorem decode_changes_only_markers (v : Json) :
    (decode v = v ↔ ∀ p w, v.at? p = some w → ¬IsMarker w) ∧
      ∀ p w, v.at? p = some w → Exposed v p →
        (¬IsMarker w → ∃ w', (decode v).at? p = some w' ∧ SameForm w w') ∧
        (IsMarker w → ∃ members tag, w = .object members ∧ tagOf? members = some tag ∧
          (decode v).at? p = some (.text (text tag members))) := by
  refine ⟨decode_eq_self_iff.trans isFree_iff_at?, fun p w hw hexposed => ?_⟩
  have hthere : (decode v).at? p = some (decode w) := at?_decode.2 ⟨w, hw, hexposed, rfl⟩
  refine ⟨fun hmarker => ⟨decode w, hthere, sameForm_decode hmarker⟩, fun hmarker => ?_⟩
  obtain ⟨members, tag, hobject, htag, htext⟩ := decode_of_isMarker hmarker
  exact ⟨members, tag, hobject, htag, htext ▸ hthere⟩

/-- What only looks like a marker stays, and a marker in it does not. -/
example :
    decode (.object [("$stepwise", .int 5), ("a", .array [.null, .object [("$stepwise", .text "promise")]])]) =
      .object [("$stepwise", .int 5), ("a", .array [.null, .text "[Promise]"])] := rfl

/-! ### What is left -/

/-- An object with a marker under the key of markers. It is none itself. -/
def HoldsMarker (v : Json) : Prop := ∃ w, v.member? markerKey = some w ∧ IsMarker w

theorem isMarker_decode_iff {v : Json} : IsMarker (decode v) ↔ HoldsMarker v := by
  by_cases hv : IsMarker v
  · obtain ⟨members, tag, rfl, htag, htext⟩ := decode_of_isMarker hv
    have hkey : Keyed.get? members markerKey = some (.text tag) := tagOf?_eq_some_iff.1 htag
    simp [htext, IsMarker, HoldsMarker, Json.member?, hkey]
  · cases v with
    | object members =>
      rw [decode_object hv, IsMarker, HoldsMarker]
      simp only [Json.member?, Keyed.get?_map, Option.map_eq_some_iff]
      constructor
      · -- the text that is found there is new, since otherwise the object would be a marker
        rintro ⟨s, w, hw, htext⟩
        obtain rfl | hmarker := eq_or_isMarker_of_decode htext
        · exact absurd ⟨s, hw⟩ hv
        · exact ⟨w, hw, hmarker⟩
      · rintro ⟨w, hw, hmarker⟩
        obtain ⟨inner, tag, -, -, htext⟩ := decode_of_isMarker hmarker
        exact ⟨text tag inner, w, hw, htext⟩
    | _ => simp [decode, IsMarker, HoldsMarker, Json.member?]

theorem exists_isMarker_at?_decode_iff (v : Json) (p : List Nat) :
    (∃ w, (decode v).at? p = some w ∧ IsMarker w) ↔
      ∃ w, v.at? p = some w ∧ Exposed v p ∧ HoldsMarker w := by
  simp only [at?_decode]
  constructor
  · rintro ⟨w, ⟨u, hu, hexposed, rfl⟩, hmarker⟩
    exact ⟨u, hu, hexposed, isMarker_decode_iff.1 hmarker⟩
  · rintro ⟨u, hu, hexposed, hholds⟩
    exact ⟨decode u, ⟨u, hu, hexposed, rfl⟩, isMarker_decode_iff.2 hholds⟩

/-- A decoded value has a marker just where the value has, with no marker around it, an object with a marker
under the key of markers; and it is decoded to itself just if there is no such object. -/
theorem markers_of_decode (v : Json) :
    (∀ p, (∃ w, (decode v).at? p = some w ∧ IsMarker w) ↔
        ∃ w, v.at? p = some w ∧ Exposed v p ∧ HoldsMarker w) ∧
      (decode (decode v) = decode v ↔ ∀ p w, v.at? p = some w → Exposed v p → ¬HoldsMarker w) := by
  have hnone (p : List Nat) : (∀ w, (decode v).at? p = some w → ¬IsMarker w) ↔
      ∀ w, v.at? p = some w → Exposed v p → ¬HoldsMarker w := by
    simpa only [not_exists, not_and] using not_congr (exists_isMarker_at?_decode_iff v p)
  refine ⟨exists_isMarker_at?_decode_iff v, ?_⟩
  rw [decode_eq_self_iff, isFree_iff_at?]
  exact forall_congr' hnone

/-- A marker under the key of markers: the decoded value is a marker, and is not decoded to itself. -/
theorem marker_of_nested_marker :
    let v : Json := .object [("$stepwise", .object [("$stepwise", .text "undefined")])]
    ¬(∀ p w, (decode v).at? p = some w → ¬IsMarker w) ∧ decode (decode v) ≠ decode v := by
  intro v
  refine ⟨fun h => h [] _ rfl ⟨"[undefined]", rfl⟩, fun h => ?_⟩
  cases h

/-! ### Bindings -/

/-- A marker that says that a read failed has the placeholder of the failure for its text. -/
theorem shown_read (name : String) (v : Json) :
    (match read name v with
      | .ok w => w
      | .error f => .text f.placeholder) = decode v := by
  cases v with
  | object members =>
    cases htag : tagOf? members with
    | none => simp [read, htag]
    | some tag =>
      by_cases hunavailable : tag = "unavailable"
      · subst hunavailable
        simp [read, htag, decode, text, CaptureFault.placeholder]
      · by_cases hunserializable : tag = "unserializable"
        · subst hunserializable
          simp [read, htag, decode, text, CaptureFault.placeholder]
        · simp [read, htag, hunavailable, hunserializable]
  | _ => rfl

end Marker

namespace Bindings

theorem kept_of_get? {vars : Members} {name : String} {v : Json} (h : vars.get? name = some v) :
    (ofSent vars).kept name = Marker.decode v := by
  have hread : (ofSent vars).read name = Marker.read name v := by simp only [ofSent, h]
  rw [kept, hread]
  exact Marker.shown_read name v

/-- What is captured of the bindings of an event: its first ones without that of all arguments, each with its
decoded value. What is shown of a read is the decoded value, also if the read failed. -/
theorem capture_ofSent_eq_decode {vars : Members} (h : Keyed.Distinct vars) (limit : Option Nat) :
    (ofSent vars).capture limit =
        (firstOf limit (vars.filter (·.1 ≠ argumentsName))).map (fun m => (m.1, Marker.decode m.2)) ∧
      ∀ name v, (match Marker.read name v with
        | .ok w => w
        | .error f => .text f.placeholder) = Marker.decode v := by
  refine ⟨?_, Marker.shown_read⟩
  have hnames : newNames [] (ofSent vars).names = (vars.filter (·.1 ≠ argumentsName)).map Prod.fst :=
    calc
      newNames [] vars.keys = vars.keys.filter (· ≠ argumentsName) :=
        newNames_of_nodup h fun x _ => List.not_mem_nil
      _ = (vars.filter (·.1 ≠ argumentsName)).map Prod.fst := List.filter_map
  rw [capture_eq_map_entry, hnames, firstOf_map, List.map_map]
  refine List.map_congr_left fun m hm => ?_
  have hmem : m ∈ vars := (List.mem_filter.1 (mem_of_mem_firstOf hm)).1
  rw [Function.comp_apply, entry, kept_of_get? (h.get?_of_mem hmem)]

/-- Reads that failed, one with a reason that is no text, a marker in a value, and no room for the last name. -/
theorem capture_ofSent_eq_decode_markers :
    let vars : Members :=
      [ ("a", .object [("$stepwise", .text "unavailable"), ("reason", .int 3)])
      , ("arguments", .null)
      , ("b", .object [("c", .array [.object [("$stepwise", .text "bigint"), ("value", .text "7")]])])
      , ("d", .object [("$stepwise", .text "unserializable"), ("reason", .text "cyclic value")])
      , ("e", .bool true) ]
    Keyed.Distinct vars ∧
      (ofSent vars).capture (some 3) =
        (firstOf (some 3) (vars.filter (·.1 ≠ argumentsName))).map (fun m => (m.1, Marker.decode m.2)) ∧
      (ofSent vars).capture (some 3) =
        [ ("a", .text "[unavailable]")
        , ("b", .object [("c", .array [.text "7n"])])
        , ("d", .text "[unserializable]") ] := by
  intro vars
  have hdistinct : Keyed.Distinct vars := by decide
  have hcapture := (capture_ofSent_eq_decode hdistinct (some 3)).1
  exact ⟨hdistinct, hcapture, hcapture.trans rfl⟩

end Bindings

end StepTrace.Recording
