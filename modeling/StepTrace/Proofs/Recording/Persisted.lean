import StepTrace.Proofs.Json.Proper
import StepTrace.Proofs.Recording.Decoded
import StepTrace.Proofs.Recording.Wire

/-!
Steps as they are kept. What is captured of an event is nested no deeper than what was sent, so that the step can
be written and read; and a step comes back from its text in either layout.
-/
namespace StepTrace.Recording

/-! ### Decoded values -/

namespace Marker

theorem fits_decode {v : Json} (h : v.Fits) : (decode v).Fits := by
  by_cases hv : IsMarker v
  · obtain ⟨members, tag, -, -, htext⟩ := decode_of_isMarker hv
    rw [htext]
    trivial
  · cases v with
    | array items =>
      rw [decode_array]
      trivial
    | object members =>
      have hkeys : Keyed.keys (members.map fun m => (m.1, decode m.2)) = Keyed.keys members := by
        simp [Keyed.keys, Function.comp_def]
      rw [decode_object hv, Json.Fits, Keyed.Distinct, hkeys]
      exact h
    | _ => exact h

/-- Decoding makes no value that JSON cannot hold. -/
theorem isProper_decode {v : Json} (h : v.IsProper) : (decode v).IsProper := by
  intro p w hw
  obtain ⟨u, hu, -, rfl⟩ := at?_decode.1 hw
  exact fits_decode (h p u hu)

/-- Decoding nests no container deeper. -/
theorem depth_decode_le (v : Json) : (decode v).depth ≤ v.depth := by
  induction v using Json.childInduction with
  | step v ih =>
    by_cases hv : IsMarker v
    · obtain ⟨members, tag, -, -, htext⟩ := decode_of_isMarker hv
      rw [htext]
      exact Nat.zero_le _
    · cases v with
      | array items =>
        have hitems : Json.depthOf (items.map decode) ≤ Json.depthOf items := by
          refine Json.depthOf_le_iff.2 fun w hw => ?_
          obtain ⟨u, hu, rfl⟩ := List.mem_map.1 hw
          exact (ih u hu).trans (Json.depthOf_le_iff.1 le_rfl u hu)
        simpa [decode_array, Json.depth] using hitems
      | object members =>
        have hmembers : Json.memberDepth (members.map fun m => (m.1, decode m.2)) ≤
            Json.memberDepth members := by
          refine Json.memberDepth_le_iff.2 fun w hw => ?_
          obtain ⟨m, hm, rfl⟩ := List.mem_map.1 hw
          exact (ih m.2 (List.mem_map_of_mem hm)).trans (Json.memberDepth_le_iff.1 le_rfl m hm)
        simpa [decode_object hv, Json.depth] using hmembers
      | _ => exact Nat.le_refl _

end Marker

namespace Bindings

theorem distinct_capture (b : Bindings) (limit : Option Nat) : Keyed.Distinct (b.capture limit) := by
  have hnodup : (firstOf limit (newNames [] b.names)).Nodup := by
    cases limit with
    | none => exact nodup_newNames [] b.names
    | some n => exact (nodup_newNames [] b.names).sublist (List.take_sublist n _)
  rw [capture_eq_map_entry, Keyed.Distinct, Keyed.keys, List.map_map]
  simpa [Function.comp_def, entry] using hnodup

theorem mem_capture_ofSent {vars : Members} {limit : Option Nat} {m : String × Json}
    (h : m ∈ (ofSent vars).capture limit) : ∃ v, (m.1, v) ∈ vars ∧ m.2 = Marker.decode v := by
  rw [capture_eq_map_entry] at h
  obtain ⟨name, hname, rfl⟩ := List.mem_map.1 h
  have hkey : name ∈ vars.keys := (mem_newNames.1 (mem_of_mem_firstOf hname)).1
  obtain ⟨v, hv⟩ : ∃ v, vars.get? name = some v := by
    rw [← Option.ne_none_iff_exists']
    exact fun hnone => Keyed.get?_eq_none_iff.1 hnone hkey
  exact ⟨v, Keyed.mem_of_get? hv, kept_of_get? hv⟩

/-- What is captured of bindings that JSON can hold is such an object too, and nested no deeper. -/
theorem isProper_capture_ofSent {vars : Members} (h : (Json.object vars).IsProper) (limit : Option Nat) :
    (Json.object ((ofSent vars).capture limit)).IsProper ∧
      (Json.object ((ofSent vars).capture limit)).depth ≤ (Json.object vars).depth := by
  obtain ⟨-, hchildren⟩ := Json.isProper_iff_children.1 h
  constructor
  · refine Json.isProper_iff_children.2 ⟨distinct_capture _ limit, fun c hc => ?_⟩
    obtain ⟨m, hm, rfl⟩ := List.mem_map.1 hc
    obtain ⟨v, hv, he⟩ := mem_capture_ofSent hm
    rw [he]
    exact Marker.isProper_decode (hchildren v (List.mem_map.2 ⟨_, hv, rfl⟩))
  · refine Nat.succ_le_succ (Json.memberDepth_le_iff.2 fun m hm => ?_)
    obtain ⟨v, hv, he⟩ := mem_capture_ofSent hm
    rw [he]
    exact (Marker.depth_decode_le v).trans (Json.memberDepth_le_iff.1 le_rfl _ hv)

end Bindings

/-! ### Events as they are read -/

theorem mem_of_single? {α : Type} {members : List (String × α)} {name : String} {a : α}
    (h : single? members name = some (some a)) : ∃ k, (k, a) ∈ members := by
  unfold single? at h
  split at h
  · cases h
  · next m hm =>
    cases h
    have hmem : m ∈ members.filter (·.1 == name) := hm ▸ List.mem_singleton_self m
    exact ⟨m.1, (List.mem_filter.1 hmem).1⟩
  · cases h

theorem mem_of_member? {members : List (String × Json)} {name : String} {ms : Members}
    (h : Event.member? members name Json.object? = some (some ms)) : ∃ k, (k, .object ms) ∈ members := by
  unfold Event.member? at h
  split at h
  · cases h
  · cases h
  · next v hv =>
    obtain ⟨k, hk⟩ := mem_of_single? hv
    cases v with
    | object ms' =>
      cases h
      exact ⟨k, hk⟩
    | _ => cases h

/-- The bindings of an event are the object that one of its members holds, if there are any. -/
theorem vars_of_ofMembers? {members : List (String × Json)} {kind : String} {s : Sighting}
    (h : Event.ofMembers? members kind = some (.record s)) :
    s.vars = [] ∨ ∃ k, (k, .object s.vars) ∈ members := by
  unfold Event.ofMembers? at h
  split at h
  all_goals simp only [Option.bind_eq_bind, Option.bind_eq_some_iff, Option.pure_def, reduceCtorEq,
    Option.some.injEq, and_false, exists_false, Event.record.injEq] at h
  obtain ⟨line, -, column, -, vars?, hvars, ret, -, file, -, ts, -, rfl⟩ := h
  cases vars? with
  | none => exact .inl rfl
  | some ms => exact .inr (mem_of_member? hvars)

/-- The bindings of an event that was read are values that JSON can hold, inside the container of the event. -/
theorem isProper_of_ofText? {text : String} {e : StreamEvent} {s : Sighting}
    (h : StreamEvent.ofText? text = some e) (hs : e.event = .record s) :
    (Json.object s.vars).IsProper ∧ (Json.object s.vars).depth < Json.depthLimit := by
  obtain ⟨r, -, hr⟩ := Option.bind_eq_some_iff.1 h
  cases r with
  | object members =>
    simp only [StreamEvent.ofRaw?, Option.bind_eq_bind, Option.bind_eq_some_iff, Option.pure_def,
      Option.some.injEq] at hr
    obtain ⟨ms, hms, stream, -, kind, -, event, hevent, rfl⟩ := hr
    obtain rfl : event = .record s := hs
    obtain hnil | ⟨k, hk⟩ := vars_of_ofMembers? hevent
    · have hempty : (Json.object []).IsProper :=
        Json.isProper_iff_children.2 ⟨List.nodup_nil, List.forall_mem_nil _⟩
      rw [hnil]
      exact ⟨hempty, by decide⟩
    · obtain ⟨hproper, hdepth⟩ := Json.isProper_of_members? members hms _ hk
      exact ⟨hproper, Nat.lt_of_le_sub_one (by decide) hdepth⟩
  | _ => cases hr

/-! ### Steps and their texts -/

theorem single?_map {α β : Type} (f : α → β) (members : List (String × α)) (name : String) :
    single? (members.map fun m => (m.1, f m.2)) name = (single? members name).map (Option.map f) := by
  have hfilter : (members.map fun m => (m.1, f m.2)).filter (·.1 == name) =
      (members.filter (·.1 == name)).map fun m => (m.1, f m.2) := List.filter_map
  rw [single?, single?, hfilter]
  generalize members.filter (·.1 == name) = found
  rcases found with _ | ⟨m, _ | ⟨m', r⟩⟩ <;> rfl

namespace Step

/-- The members of a step as it is written. -/
def members (s : Step) : Members :=
  [ some ("stepNumber", .ofNat s.stepNumber)
  , some ("file", .text s.file)
  , some ("line", .ofNat s.line.toNat)
  , some ("column", .ofNat s.column.toNat)
  , some ("vars", .object s.vars)
  , some ("ts", .ofNat s.ts.toNat)
  , some ("suite", .text s.suite)
  , some ("test", .text s.test)
  , if s.returnPosition then some ("returnPosition", .bool true) else none ].filterMap id

theorem toJson_eq (s : Step) : s.toJson = .object s.members := rfl

/-- A step is readable if its number has 64 bits and its bindings are readable. -/
theorem isReadable_toJson {s : Step} (hnumber : s.stepNumber < Nat.pow 2 64)
    (hvars : (Json.object s.vars).IsReadable) : s.toJson.IsReadable := by
  have hplace (n : UInt32) : (Json.ofNat n.toNat).IsReadable :=
    Json.isReadable_ofNat (Nat.lt_trans n.toNat_lt (by decide))
  have hts : (Json.ofNat s.ts.toNat).IsReadable := Json.isReadable_ofNat s.ts.toNat_lt
  have hdistinct : Keyed.Distinct s.members := by
    cases hret : s.returnPosition <;> simp [members, hret, Keyed.Distinct, Keyed.keys]
  have hpair : Keyed.Distinct s.vars ∧ Json.MembersReadable s.vars := hvars
  have hmembers : Json.MembersReadable s.members := by
    cases hret : s.returnPosition <;>
      simp [members, hret, Json.MembersReadable, Json.isReadable_ofNat hnumber, hplace, hts, hpair,
        Json.IsReadable]
  exact ⟨hdistinct, hmembers⟩

/-- Its containers are nested as deep as its bindings, and once more. -/
theorem depth_toJson (s : Step) : s.toJson.depth = (Json.object s.vars).depth + 1 := by
  have hmembers : Json.memberDepth s.members = (Json.object s.vars).depth := by
    cases hret : s.returnPosition <;> simp [members, hret, Json.memberDepth, Json.depth, Json.ofNat]
  rw [toJson_eq, Json.depth, hmembers]

theorem mapM_memberTrees (ms : List (String × Json)) :
    (Json.memberTrees ms).mapM (fun m => do return (← m.1.text?, m.2)) =
      some (ms.map fun m => (m.1, m.2.tree)) := by
  induction ms with
  | nil => rfl
  | cons m r ih =>
    obtain ⟨name, v⟩ := m
    simp only [Option.bind_eq_bind, Option.pure_def] at ih
    simp [Json.memberTrees, List.mapM_cons, Json.Quoted.text?_pieces, ih]

/-- The values of the fields of a step tell it. -/
theorem ofFields?_eq {s : Step} (hnumber : s.stepNumber < Nat.pow 2 64) :
    ofFields? (.ofNat s.stepNumber) (.text s.file) (.ofNat s.line.toNat) (.ofNat s.column.toNat)
      (.object s.vars) (.ofNat s.ts.toNat) (.text s.suite) (.text s.test)
      (if s.returnPosition then some (.bool true) else none) = some s := by
  have hbelow : (Json.ofNat s.stepNumber).below? (Nat.pow 2 64) = some s.stepNumber := if_pos hnumber
  have hplace (n : UInt32) : u32? (.ofNat n.toNat) = some n := u32?_int n
  have hts : u64? (.ofNat s.ts.toNat) = some s.ts := u64?_int s.ts
  obtain ⟨number, file, line, column, vars, ts, suite, test, ret⟩ := s
  cases ret <;> simp [ofFields?, hbelow, hplace, hts, Json.text?, Json.object?, Json.bool?]

/-- A step is read from its tree, if its containers are nested no deeper than allowed. -/
theorem ofRaw?_tree {s : Step} (h : s.toJson.IsReadable) (hdepth : s.toJson.depth ≤ Json.depthLimit) :
    ofRaw? s.toJson.tree = some s := by
  have hlimit : Json.memberDepth s.members ≤ Json.depthLimit - 1 := Nat.le_sub_one_of_lt hdepth
  have hinner : ∀ m ∈ s.members, inner? m.2.tree = some m.2 := fun m hm =>
    Json.value?_tree m.2 (Json.membersReadable_iff.1 h.2 _ (List.mem_map_of_mem hm)) _
      (Json.memberDepth_le_iff.1 hlimit m hm)
  have hfields := ofFields?_eq (Int.ofNat_lt.1 h.2.1.2)
  rw [toJson_eq, Json.tree, ofRaw?, mapM_memberTrees, Option.bind_eq_bind, Option.bind_some]
  simp only [single?_map]
  obtain ⟨number, file, line, column, vars, ts, suite, test, ret⟩ := s
  cases ret <;>
    simp only [members, Bool.false_eq_true, reduceIte, List.filterMap_cons, List.filterMap_nil, id,
      List.forall_mem_cons] at hinner <;>
    simpa [members, single?, hinner] using hfields

/-- A step is read from what spells its tree. -/
theorem ofText?_of_rawOfText? {s : Step} {text : String} (htext : Json.Raw.ofText? text = some s.toJson.tree)
    (h : s.toJson.IsReadable) (hdepth : s.toJson.depth ≤ Json.depthLimit) : ofText? text = some s := by
  rw [ofText?, htext, Option.bind_some, ofRaw?_tree h hdepth]

end Step

theorem exists_offered {e : StreamEvent} {s : Sighting} (hs : e.event = .record s) (options : Options)
    (now : UInt64) (l : Ledger) (id : String) :
    ∃ o, (l.apply options now id e.event.operation).2 = some o ∧
      o.step.vars = (Bindings.ofSent s.vars).capture options.maxVars := by
  rw [hs, Event.operation, Ledger.offered_apply]
  exact ⟨_, rfl, rfl⟩

/-- A step with the bindings of an event that was read can be written and read, if its number has 64 bits and its
floats come back. -/
theorem isReadable_of_captured {text : String} {e : StreamEvent} {s : Sighting} {limit : Option Nat}
    {step : Step} (h : StreamEvent.ofText? text = some e) (hs : e.event = .record s)
    (hvars : step.vars = (Bindings.ofSent s.vars).capture limit)
    (hnumber : step.stepNumber < Nat.pow 2 64) (hfloats : (Json.object step.vars).FloatsReread) :
    step.toJson.IsReadable ∧ step.toJson.depth ≤ Json.depthLimit := by
  obtain ⟨hproper, hdepth⟩ := isProper_of_ofText? h hs
  obtain ⟨hkept, hle⟩ := Bindings.isProper_capture_ofSent hproper limit
  rw [← hvars] at hkept hle
  refine ⟨Step.isReadable_toJson hnumber (Json.isReadable_iff.2 ⟨hkept, hfloats⟩), ?_⟩
  rw [Step.depth_toJson]
  omega

theorem ofText?_of_eventOf? {text : String} {e : StreamEvent} (h : eventOf? text = some e) :
    StreamEvent.ofText? (Text.trim text) = some e := by
  unfold eventOf? at h
  simp only at h
  split at h
  · cases h
  · exact h

end StepTrace.Recording
