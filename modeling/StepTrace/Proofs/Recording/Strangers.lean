import Mathlib.Data.List.Permutation
import StepTrace.Proofs.Json.Objects
import StepTrace.Recording.Event

/-!
What the members of a line mean. Which names mean something depends on the kind of the event; a member of another
name is passed over, and the order of the members does not matter, so the kind may come last. A name that means
something may occur once only.
-/
namespace StepTrace.Recording

/-! ### Members of one name -/

section Single

variable {α : Type} {members members' : List (String × α)} {name : String}

theorem single?_perm (h : members.Perm members') (name : String) :
    single? members name = single? members' name := by
  have hfilter := h.filter (·.1 == name)
  rw [single?, single?]
  generalize members.filter (·.1 == name) = found at hfilter
  generalize members'.filter (·.1 == name) = found' at hfilter
  match found, hfilter with
  | [], hfilter => rw [List.nil_perm.1 hfilter]
  | [m], hfilter => rw [List.singleton_perm.1 hfilter]
  | m :: n :: r, hfilter =>
    match found', hfilter.length_eq with
    | _ :: _ :: _, _ => rfl

theorem single?_append_of_forall_ne (h : ∀ m ∈ members', m.1 ≠ name) :
    single? (members ++ members') name = single? members name := by
  have hnone : members'.filter (·.1 == name) = [] := by simpa using fun k a hm => h (k, a) hm
  rw [single?, List.filter_append, hnone, List.append_nil]
  rfl

theorem countP_le_one_of_single? (h : single? members name ≠ none) :
    members.countP (·.1 == name) ≤ 1 := by
  rw [List.countP_eq_length_filter]
  unfold single? at h
  split at h
  · next hm => simp [hm]
  · next hm => simp [hm]
  · exact absurd rfl h

theorem eq_of_single? {a b : α} (h : single? members name = some (some a)) (hb : (name, b) ∈ members) : b = a := by
  unfold single? at h
  split at h
  · cases h
  · next m hm =>
    cases h
    have hmem : (name, b) ∈ members.filter (·.1 == name) := List.mem_filter.2 ⟨hb, by simp⟩
    rw [hm, List.mem_singleton] at hmem
    rw [← hmem]
  · cases h

end Single

/-! ### What an event reads -/

namespace Event

/-- The names of the members that an event of the kind has besides its kind and its stream. -/
def fieldNames : String → List String
  | "suite_enter" => ["name"]
  | "case_start" => ["name", "suite"]
  | "record" => ["line", "column", "vars", "ret", "file", "ts"]
  | _ => []

variable {members members' : List (String × Json)} {kind name : String} {e : Event}

theorem kind_of_ofMembers? (h : ofMembers? members kind = some e) : e.kind = kind := by
  unfold ofMembers? at h
  split at h
  all_goals simp only [Option.bind_eq_bind, Option.bind_eq_some_iff, Option.pure_def, Option.some.injEq,
    reduceCtorEq] at h
  case h_1 =>
    obtain ⟨name, -, rfl⟩ := h
    rfl
  case h_3 =>
    obtain ⟨name, -, suite, -, rfl⟩ := h
    rfl
  case h_6 =>
    obtain ⟨line, -, column, -, vars, -, ret, -, file, -, ts, -, rfl⟩ := h
    rfl
  all_goals
    subst h
    rfl

/-- An event depends on the members of its names alone. -/
theorem ofMembers?_congr (h : ∀ name ∈ fieldNames kind, single? members name = single? members' name) :
    ofMembers? members kind = ofMembers? members' kind := by
  unfold ofMembers?
  unfold fieldNames at h
  split <;> simp_all [required?, member?, nullable?]

/-! A name that means something is read, and a reader refuses a name that is repeated. -/

theorem member?_of_repeated {α : Type} (h : single? members name = none) (read : Json → Option α) :
    member? members name read = none := by simp [member?, h]

theorem nullable?_of_repeated {α : Type} (h : single? members name = none) (read : Json → Option α) :
    nullable? members name read = none := by simp [nullable?, h]

theorem required?_of_repeated {α : Type} (h : single? members name = none) (read : Json → Option α) :
    required? members name read = none := by simp [required?, member?_of_repeated h]

theorem single?_of_ofMembers? (h : ofMembers? members kind = some e) (hname : name ∈ fieldNames kind) :
    single? members name ≠ none := by
  intro hnone
  have hmember {α : Type} (read : Json → Option α) := member?_of_repeated hnone read
  have hnullable {α : Type} (read : Json → Option α) := nullable?_of_repeated hnone read
  have hrequired {α : Type} (read : Json → Option α) := required?_of_repeated hnone read
  unfold ofMembers? at h
  split at h
  case h_1 =>
    obtain rfl : name = "name" := by simpa [fieldNames] using hname
    simp [hrequired] at h
  case h_3 =>
    obtain rfl | rfl : name = "name" ∨ name = "suite" := by simpa [fieldNames] using hname
    all_goals simp [hrequired, hnullable] at h
  case h_6 =>
    obtain rfl | rfl | rfl | rfl | rfl | rfl : name = "line" ∨ name = "column" ∨ name = "vars" ∨
        name = "ret" ∨ name = "file" ∨ name = "ts" := by simpa [fieldNames] using hname
    all_goals simp [hmember, hnullable, hrequired] at h
  all_goals simp [fieldNames] at hname

end Event

namespace StreamEvent

/-- The names that mean something in an event of the kind. -/
def names (kind : String) : List String := "stream" :: "kind" :: Event.fieldNames kind

/-- The event that has the given members. -/
def ofMembers? (members : List (String × Json)) : Option StreamEvent := do
  let stream ← Event.nullable? members "stream" Json.text?
  let kind ← Event.required? members "kind" Event.kind?
  return ⟨stream, ← Event.ofMembers? members kind⟩

variable {members members' : List (String × Json)} {kind name : String} {e : StreamEvent}

theorem ofRaw?_object (members : List (Json.Quoted × Json.Raw)) :
    ofRaw? (.object members) = (Json.Raw.members? (Json.depthLimit - 1) members).bind ofMembers? := rfl

theorem ofMembers?_eq_some_iff :
    ofMembers? members = some e ↔ Event.nullable? members "stream" Json.text? = some e.stream ∧
      Event.required? members "kind" Event.kind? = some e.event.kind ∧
      Event.ofMembers? members e.event.kind = some e.event := by
  obtain ⟨stream, event⟩ := e
  simp only [ofMembers?, Option.bind_eq_bind, Option.bind_eq_some_iff, Option.pure_def, Option.some.injEq,
    StreamEvent.mk.injEq]
  constructor
  · rintro ⟨stream, hstream, kind, hkind, event, hevent, rfl, rfl⟩
    rw [Event.kind_of_ofMembers? hevent]
    exact ⟨hstream, hkind, hevent⟩
  · rintro ⟨hstream, hkind, hevent⟩
    exact ⟨stream, hstream, event.kind, hkind, event, hevent, rfl, rfl⟩

/-- Members that agree on the names that mean something make the same event. -/
theorem ofMembers?_of_agree (h : ofMembers? members = some e)
    (hagree : ∀ name ∈ names e.event.kind, single? members' name = single? members name) :
    ofMembers? members' = some e := by
  obtain ⟨hstream, hkind, hevent⟩ := ofMembers?_eq_some_iff.1 h
  have hs := hagree "stream" (by simp [names])
  have hk := hagree "kind" (by simp [names])
  have hfields := Event.ofMembers?_congr fun name (hname : name ∈ Event.fieldNames e.event.kind) =>
    hagree name (by simp [names, hname])
  refine ofMembers?_eq_some_iff.2 ⟨?_, ?_, hfields.trans hevent⟩
  · rw [← hstream, Event.nullable?, Event.nullable?, hs]
  · rw [← hkind, Event.required?, Event.required?, Event.member?, Event.member?, hk]

/-- An event has each of its names once at most. -/
theorem single?_of_ofMembers? (h : ofMembers? members = some e) (hname : name ∈ names e.event.kind) :
    single? members name ≠ none := by
  obtain ⟨hstream, hkind, hevent⟩ := ofMembers?_eq_some_iff.1 h
  rw [names, List.mem_cons, List.mem_cons] at hname
  obtain rfl | rfl | hname := hname
  · intro hnone
    simp [Event.nullable?_of_repeated hnone] at hstream
  · intro hnone
    simp [Event.required?_of_repeated hnone] at hkind
  · exact Event.single?_of_ofMembers? hevent hname

/-- A member under the name of the kind tells the kind. -/
theorem kind_of_mem {v : Json} (h : ofMembers? members = some e) (hv : ("kind", v) ∈ members) :
    Event.kind? v = some e.event.kind := by
  obtain ⟨-, hkind, -⟩ := ofMembers?_eq_some_iff.1 h
  rw [Event.required?, Event.member?] at hkind
  split at hkind
  · cases hkind
  · cases hkind
  · next w hw =>
    rw [eq_of_single? hw hv]
    simpa [Option.bind_map, Function.comp_def] using hkind

/-! ### Lines -/

/-- The member that part of a line is. -/
def memberOf? (part : String) : Option (String × Json) := Json.memberOf? (Json.depthLimit - 1) part

variable {line before after : String} {parts strangers parts' : List String}

/-- A line made of members is the event that has these members. -/
theorem ofText?_objectText (hbefore : Json.Blanks before.toList) (hafter : Json.Blanks after.toList)
    (hparts : ∀ part ∈ parts, (memberOf? part).isSome) :
    ofText? (before ++ Json.objectText parts ++ after) = ofMembers? (parts.filterMap memberOf?) := by
  obtain ⟨members, hread, hvalues⟩ := Json.forall₂_memberOf?_iff.1 (Json.forall₂_eq_some_iff.2 ⟨hparts, rfl⟩)
  rw [ofText?, Json.rawOfText?_objectText hbefore hafter hread, Option.bind_some, ofRaw?_object, hvalues]
  rfl

/-- The line of an event is made of members. -/
theorem exists_parts (h : ofText? line = some e) :
    ∃ before parts after, line = before ++ Json.objectText parts ++ after ∧ Json.Blanks before.toList ∧
      Json.Blanks after.toList ∧ ∀ part ∈ parts, (memberOf? part).isSome := by
  obtain ⟨r, hr, he⟩ := Option.bind_eq_some_iff.1 h
  cases r with
  | object members =>
    rw [ofRaw?_object, Option.bind_eq_some_iff] at he
    obtain ⟨values, hvalues, he⟩ := he
    have hne : members ≠ [] := by
      rintro rfl
      cases hvalues
      cases he
    obtain ⟨before, parts, after, hline, hb, ha, hread⟩ := Json.exists_objectText hne hr
    have hparts := Json.forall₂_eq_some_iff.1 (Json.forall₂_memberOf?_iff.2 ⟨members, hread, hvalues⟩)
    exact ⟨before, parts, after, hline, hb, ha, hparts.1⟩
  | _ => cases he

theorem ofText?_of_perm (hbefore : Json.Blanks before.toList) (hafter : Json.Blanks after.toList)
    (hparts : ∀ part ∈ parts, (memberOf? part).isSome)
    (h : ofText? (before ++ Json.objectText parts ++ after) = some e)
    (hstrangers : ∀ part ∈ strangers, ∃ m, memberOf? part = some m ∧ m.1 ∉ names e.event.kind)
    (hperm : parts'.Perm (parts ++ strangers)) :
    ofText? (before ++ Json.objectText parts' ++ after) = some e := by
  have hall : ∀ part ∈ parts', (memberOf? part).isSome := by
    intro part hpart
    obtain hmem | hmem := List.mem_append.1 (hperm.mem_iff.1 hpart)
    · exact hparts part hmem
    · obtain ⟨m, hm, -⟩ := hstrangers part hmem
      simp [hm]
  rw [ofText?_objectText hbefore hafter hparts] at h
  rw [ofText?_objectText hbefore hafter hall]
  refine ofMembers?_of_agree h fun name hname => ?_
  have hother : ∀ m ∈ strangers.filterMap memberOf?, m.1 ≠ name := by
    rintro m hm rfl
    obtain ⟨part, hpart, hm⟩ := List.mem_filterMap.1 hm
    obtain ⟨m', hm', hnew⟩ := hstrangers part hpart
    rw [hm, Option.some.injEq] at hm'
    exact hnew (hm' ▸ hname)
  rw [single?_perm (hperm.filterMap memberOf?), List.filterMap_append, single?_append_of_forall_ne hother]

/-- A name that means something is not repeated in the line of an event. -/
theorem ofText?_of_repeated {members : List (Json.Quoted × Json.Raw)} {k : Json.Quoted} {v : Json.Raw}
    {kind name : String} (hline : Json.Raw.ofText? line = some (.object members)) (hmem : (k, v) ∈ members)
    (hk : k.text? = some "kind") (hkind : (v.value? (Json.depthLimit - 1)).bind Event.kind? = some kind)
    (hname : name ∈ names kind) (hrepeated : 2 ≤ members.countP fun m => m.1.text? == some name) :
    ofText? line = none := by
  rw [Option.eq_none_iff_forall_ne_some]
  intro e he
  rw [ofText?, hline, Option.bind_some, ofRaw?_object, Option.bind_eq_some_iff] at he
  obtain ⟨values, hvalues, he⟩ := he
  obtain ⟨hall, rfl⟩ := Json.forall₂_eq_some_iff.1 (Json.members?_eq_some_iff.1 hvalues)
  obtain ⟨w, hw, hv⟩ := Option.bind_eq_some_iff.1 hkind
  have hmem' : ("kind", w) ∈ members.filterMap (Json.standsFor? (Json.depthLimit - 1)) :=
    List.mem_filterMap.2 ⟨(k, v), hmem, Json.standsFor?_eq_some_iff.2 ⟨hk, hw⟩⟩
  have hcount : (members.filterMap (Json.standsFor? (Json.depthLimit - 1))).countP (·.1 == name) =
      members.countP fun m => m.1.text? == some name := by
    rw [List.countP_filterMap]
    refine List.countP_congr fun m hm => ?_
    obtain ⟨p, hp⟩ := Option.isSome_iff_exists.1 (hall m hm)
    simp [hp, (Json.standsFor?_eq_some_iff.1 hp).1]
  have hsame := (kind_of_mem he hmem').symm.trans hv
  have hone := countP_le_one_of_single? (single?_of_ofMembers? he (Option.some.inj hsame ▸ hname))
  omega

end StreamEvent

/-- The event of a line does not depend on the order of the members, nor on members of names that mean nothing in an
event of its kind. The line of an event is made of members between braces; whatever the order in which these are put,
the kind and the stream anywhere, and whatever members of other names are put among them, with any values that can be
read, the line is read as the same event. A line with a name that means something in an event of the kind that the line
tells is read as no event if the name is repeated. -/
theorem event_rearranged :
    (∀ line e, StreamEvent.ofText? line = some e → ∃ before parts after,
      line = before ++ Json.objectText parts ++ after ∧ Json.Blanks before.toList ∧ Json.Blanks after.toList ∧
        ∀ part ∈ parts, (StreamEvent.memberOf? part).isSome) ∧
    (∀ before parts after e, Json.Blanks before.toList → Json.Blanks after.toList →
      (∀ part ∈ parts, (StreamEvent.memberOf? part).isSome) →
      StreamEvent.ofText? (before ++ Json.objectText parts ++ after) = some e →
      ∀ strangers, (∀ part ∈ strangers, ∃ m, StreamEvent.memberOf? part = some m ∧
        m.1 ∉ StreamEvent.names e.event.kind) →
      ∀ parts', parts'.Perm (parts ++ strangers) →
        StreamEvent.ofText? (before ++ Json.objectText parts' ++ after) = some e) ∧
    ∀ line members, Json.Raw.ofText? line = some (.object members) →
      ∀ m ∈ members, m.1.text? = some "kind" →
      ∀ kind, (m.2.value? (Json.depthLimit - 1)).bind Event.kind? = some kind →
      ∀ name ∈ StreamEvent.names kind, 2 ≤ members.countP (fun m => m.1.text? == some name) →
        StreamEvent.ofText? line = none := by
  refine ⟨fun line e h => StreamEvent.exists_parts h, ?_, ?_⟩
  · intro before parts after e hbefore hafter hparts h strangers hstrangers parts' hperm
    exact StreamEvent.ofText?_of_perm hbefore hafter hparts h hstrangers hperm
  · intro line members hline m hmem hk kind hkind name hname hrepeated
    exact StreamEvent.ofText?_of_repeated hline hmem hk hkind hname hrepeated

/-- The kind comes last, and the line of a step means nothing in the start of a case. -/
theorem event_rearranged_kind_last :
    let parts := ["\"kind\":\"case_start\"", "\"name\": \"adds\"", "\"stream\":\"7:1\""]
    let strangers := ["\"line\":[null]"]
    StreamEvent.ofText? ("" ++ Json.objectText parts ++ " ") = some ⟨some "7:1", .caseStart "adds" none⟩ ∧
      StreamEvent.ofText? ("" ++ Json.objectText (parts ++ strangers).reverse ++ " ") =
        some ⟨some "7:1", .caseStart "adds" none⟩ ∧
      StreamEvent.ofText? "\x7b\"kind\":\"suite_exit\",\"kind\":4\x7d" = none := by
  intro parts strangers
  have hafter : Json.Blanks " ".toList := List.forall_mem_singleton.2 rfl
  have hparts : ∀ part ∈ parts, (StreamEvent.memberOf? part).isSome := by decide +kernel
  have hevent : StreamEvent.ofText? ("" ++ Json.objectText parts ++ " ") =
      some ⟨some "7:1", .caseStart "adds" none⟩ := by cbv
  have hstranger : StreamEvent.memberOf? "\"line\":[null]" = some ("line", .array [.null]) := by cbv
  refine ⟨hevent, ?_, ?_⟩
  · exact event_rearranged.2.1 "" parts " " _ Json.blanks_nil hafter hparts hevent strangers
      (List.forall_mem_singleton.2 ⟨_, hstranger, by decide⟩) _ (List.reverse_perm _)
  · have hline : Json.Raw.ofText? "\x7b\"kind\":\"suite_exit\",\"kind\":4\x7d" = some (.object
        [("kind".toList.map .char, .text ("suite_exit".toList.map .char)),
          ("kind".toList.map .char, .number ⟨false, [4], [], none⟩)]) := by cbv
    exact event_rearranged.2.2 _ _ hline _ List.mem_cons_self (by cbv) "suite_exit" (by cbv) "kind" (by decide)
      (by decide +kernel)

end StepTrace.Recording
