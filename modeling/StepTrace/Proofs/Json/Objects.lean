import StepTrace.Proofs.Json.Series

/-!
Objects and the texts of their members. A text that is read as an object with members is made of parts with commas
between them, each of which makes a member if braces are put around it; and any such parts make an object.
-/
namespace StepTrace.Json

/-- The text of an object with the members that the parts are. -/
def objectText (parts : List String) : String := "\x7b" ++ ",".intercalate parts ++ "\x7d"

/-- What a member stands for: its name, and its value if that is nested no deeper than said. -/
def standsFor? (depth : Nat) (m : Quoted × Raw) : Option (String × Json) := do
  return (← m.1.text?, ← m.2.value? depth)

/-- The member that a text is when braces are put around it. -/
def memberOf? (depth : Nat) (part : String) : Option (String × Json) :=
  match Raw.ofText? (objectText [part]) with
  | some (.object [m]) => standsFor? depth m
  | _ => none

/-- Parts that are read as the members. -/
abbrev ReadAs (parts : List String) (members : List (Quoted × Raw)) : Prop :=
  List.Forall₂ (fun part m => ReadsMember part.toList m) parts members

theorem toList_objectText (parts : List String) :
    (objectText parts).toList = '\x7b' :: ([','].intercalate (parts.map String.toList) ++ ['\x7d']) := by
  simp [objectText, String.toList_intercalate]

variable {before after : String} {parts : List String} {members : List (Quoted × Raw)}

theorem rawOfText?_objectText (hbefore : Blanks before.toList) (hafter : Blanks after.toList)
    (h : ReadAs parts members) :
    Raw.ofText? (before ++ objectText parts ++ after) = some (.object members) := by
  have hobject : Reads (objectText parts).toList (.object members) := by
    rw [toList_objectText]
    by_cases hne : parts = []
    · subst hne
      cases h
      exact reads_noMembers blanks_nil
    · exact reads_object (by simpa using hne) (List.forall₂_map_left_iff.2 h)
  rw [rawOfText?_eq_some_iff, String.toList_append, String.toList_append]
  exact (hobject.after_blanks hbefore).append_blanks hafter

/-- Only from an object with members are members read. -/
theorem readMembers_of_read {fuel : Nat} {cs r : List Char} (hne : members ≠ [])
    (h : Raw.read (fuel + 1) cs = some (.object members, r)) :
    ∃ t, Raw.skipBlanks cs = '\x7b' :: t ∧ Raw.readMembers fuel t = some (members, r) := by
  rw [Raw.read] at h
  split at h
  case h_6 t ht =>
    refine ⟨t, ht, ?_⟩
    split at h
    · cases h
      exact absurd rfl hne
    · obtain ⟨⟨ms, r'⟩, hms, h⟩ := Option.bind_eq_some_iff.1 h
      cases h
      rwa [readMembers_skipBlanks] at hms
  case h_5 =>
    split at h
    · cases h
    · obtain ⟨p, -, h⟩ := Option.bind_eq_some_iff.1 h
      cases h
  case h_4 | h_7 =>
    obtain ⟨p, -, h⟩ := Option.bind_eq_some_iff.1 h
    cases h
  all_goals cases h

theorem exists_objectText {s : String} (hne : members ≠ []) (h : Raw.ofText? s = some (.object members)) :
    ∃ before parts after, s = before ++ objectText parts ++ after ∧ Blanks before.toList ∧
      Blanks after.toList ∧ ReadAs parts members := by
  obtain ⟨r, hread, hskip⟩ := rawOfText?_eq_some_iff.1 h [] delimits_nil (2 * s.toList.length) (by omega)
  rw [List.append_nil] at hread
  obtain ⟨t, ht, hmembers⟩ := readMembers_of_read hne hread
  obtain ⟨parts, -, rfl, hreads⟩ :=
    readMembers_lists.exists_parts (by decide) (fun f _ => readMember_local (read_local f)) hmembers
  obtain ⟨b, hb, hs⟩ := exists_blanks s.toList
  have htexts : (parts.map String.ofList).map String.toList = parts := by simp [Function.comp_def]
  refine ⟨String.ofList b, parts.map String.ofList, String.ofList r, ?_, by simpa using hb, ?_, ?_⟩
  · rw [← String.toList_inj, String.toList_append, String.toList_append, toList_objectText, htexts, hs, ht]
    simp
  · simpa using skipBlanks_eq_nil_iff.1 hskip
  · rw [ReadAs, List.forall₂_map_left_iff]
    simpa using hreads

/-- No blanks are part of an object from its first to its last brace. -/
theorem eq_of_objectText {part part' : String} (hbefore : Blanks before.toList) (hafter : Blanks after.toList)
    (h : objectText [part] = before ++ objectText [part'] ++ after) : part = part' := by
  replace h := congrArg String.toList h
  simp only [String.toList_append, toList_objectText, List.map_cons, List.map_nil,
    List.intercalate_singleton] at h
  have hnil : before.toList = [] := by
    cases hb : before.toList with
    | nil => rfl
    | cons c b =>
      rw [hb, List.cons_append, List.cons_append] at h
      have hc := hbefore c (by simp [hb])
      rw [← (List.cons.inj h).1] at hc
      cases hc
  have hnil' : after.toList = [] := by
    rcases List.eq_nil_or_concat after.toList with ha | ⟨a, c, ha⟩
    · exact ha
    · have hc := hafter c (by simp [ha])
      have hends : ('\x7b' :: part.toList) ++ ['\x7d'] =
          (before.toList ++ '\x7b' :: (part'.toList ++ '\x7d' :: a)) ++ [c] := by simpa [ha] using h
      rw [← (List.cons.inj (List.append_inj' hends rfl).2).1] at hc
      cases hc
  rw [hnil, hnil'] at h
  exact String.toList_inj.1 (by simpa using h)

variable {depth : Nat} {values : List (String × Json)}

theorem standsFor?_eq_some_iff {m : Quoted × Raw} {p : String × Json} :
    standsFor? depth m = some p ↔ m.1.text? = some p.1 ∧ m.2.value? depth = some p.2 := by
  obtain ⟨name, v⟩ := p
  simp [standsFor?, Option.bind_eq_some_iff]

theorem members?_eq_some_iff : Raw.members? depth members = some values ↔
    List.Forall₂ (fun m p => standsFor? depth m = some p) members values := by
  induction members generalizing values with
  | nil => simp [Raw.members?, eq_comm]
  | cons m members ih =>
    rw [List.forall₂_cons_left_iff]
    simp only [Raw.members?, Option.bind_eq_bind, Option.bind_eq_some_iff, Option.pure_def, Option.some.injEq]
    constructor
    · rintro ⟨name, hname, w, hw, values, hvalues, rfl⟩
      exact ⟨(name, w), values, standsFor?_eq_some_iff.2 ⟨hname, hw⟩, ih.1 hvalues, rfl⟩
    · rintro ⟨⟨name, w⟩, values, hm, hvalues, rfl⟩
      obtain ⟨hname, hw⟩ := standsFor?_eq_some_iff.1 hm
      exact ⟨name, hname, w, hw, values, ih.2 hvalues, rfl⟩

theorem memberOf?_eq_some_iff {part : String} {p : String × Json} :
    memberOf? depth part = some p ↔ ∃ m, ReadsMember part.toList m ∧ standsFor? depth m = some p := by
  rw [memberOf?]
  constructor
  · intro h
    split at h
    · next m hobject =>
      obtain ⟨before, parts, after, hs, hb, ha, hparts⟩ := exists_objectText (by simp) hobject
      obtain ⟨part', hpart, rfl⟩ : ∃ part', ReadsMember part'.toList m ∧ parts = [part'] := by
        cases hparts with
        | cons h hnil =>
          cases hnil
          exact ⟨_, h, rfl⟩
      obtain rfl := eq_of_objectText hb ha hs
      exact ⟨m, hpart, h⟩
    · cases h
  · rintro ⟨m, hpart, hp⟩
    have hnone : Blanks "".toList := blanks_nil
    have hobject := rawOfText?_objectText hnone hnone (.cons hpart .nil)
    rw [String.empty_append, String.append_empty] at hobject
    simp [hobject, hp]

/-- Each part is a member just if the parts are read as members that stand for something. -/
theorem forall₂_memberOf?_iff :
    List.Forall₂ (fun part p => memberOf? depth part = some p) parts values ↔
      ∃ members, ReadAs parts members ∧ Raw.members? depth members = some values := by
  simp only [members?_eq_some_iff]
  constructor
  · intro h
    induction h with
    | nil => exact ⟨[], .nil, .nil⟩
    | cons hpart _ ih =>
      obtain ⟨m, hm, hp⟩ := memberOf?_eq_some_iff.1 hpart
      obtain ⟨members, hmembers, hvalues⟩ := ih
      exact ⟨m :: members, .cons hm hmembers, .cons hp hvalues⟩
  · rintro ⟨members, hmembers, hvalues⟩
    induction hmembers generalizing values with
    | nil =>
      cases hvalues
      exact .nil
    | cons hm _ ih =>
      cases hvalues with
      | cons hp hvalues => exact .cons (memberOf?_eq_some_iff.2 ⟨_, hm, hp⟩) (ih hvalues)

theorem forall₂_eq_some_iff {α β : Type} {f : α → Option β} {l : List α} {l' : List β} :
    List.Forall₂ (fun a b => f a = some b) l l' ↔ (∀ a ∈ l, (f a).isSome) ∧ l' = l.filterMap f := by
  induction l generalizing l' with
  | nil => simp
  | cons a l ih =>
    rw [List.forall₂_cons_left_iff]
    cases ha : f a with
    | none => simp [ha]
    | some b => simp [ha, ih, and_assoc]

end StepTrace.Json
