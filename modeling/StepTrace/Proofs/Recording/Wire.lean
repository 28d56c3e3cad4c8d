import StepTrace.Proofs.Json.Reread
import StepTrace.Proofs.Recording.Lines

/-!
Events as they are sent. An event is written as one line of text, whatever names and values it holds, and a
file of such lines tells the events again.
-/
namespace StepTrace.Recording

/-! ### The members of an event -/

theorem u32?_int (n : UInt32) : u32? (.int n.toNat) = some n := by
  have h : Json.below? (Nat.pow 2 32) (.int n.toNat) = some n.toNat := if_pos n.toNat_lt
  rw [u32?, h, Option.map_some, UInt32.ofNat_toNat]

theorem u64?_int (n : UInt64) : u64? (.int n.toNat) = some n := by
  have h : Json.below? (Nat.pow 2 64) (.int n.toNat) = some n.toNat := if_pos n.toNat_lt
  rw [u64?, h, Option.map_some, UInt64.ofNat_toNat]

theorem texts?_array (texts : List String) : (Json.array (texts.map .text)).texts? = some texts := by
  have h : (texts.map Json.text).mapM Json.text? = some texts := by
    induction texts with
    | nil => rfl
    | cons s texts ih => simp [List.mapM_cons, ih, Json.text?]
  exact h

namespace StreamEvent

/-- The members of an event as it is sent. -/
def members (e : StreamEvent) : Members :=
  ((e.stream.map fun s => ("stream", Json.text s))
    :: some ("kind", .text e.event.kind) :: e.event.fields).filterMap id

/-- The members of an event tell it. -/
theorem ofMembers?_members (e : StreamEvent) :
    Event.nullable? e.members "stream" Json.text? = some e.stream ∧
      Event.required? e.members "kind" Event.kind? = some e.event.kind ∧
      Event.ofMembers? e.members e.event.kind = some e.event := by
  obtain ⟨stream, event⟩ := e
  cases event with
  | record s =>
    obtain ⟨line, column, vars, ret, file, ts⟩ := s
    cases stream <;> cases file <;> cases ts <;>
      simp [members, Event.fields, Event.kind, Event.kind?, Event.kinds, Event.nullable?, Event.required?,
        Event.member?, Event.ofMembers?, single?, Json.text?, Json.object?, Json.bool?, Json.ofNat, u32?_int,
        u64?_int]
  | caseStart name suite =>
    cases stream <;> cases suite <;>
      simp [members, Event.fields, Event.kind, Event.kind?, Event.kinds, Event.nullable?, Event.required?,
        Event.member?, Event.ofMembers?, single?, Json.text?, Json.ofTexts, texts?_array]
  | _ =>
    cases stream <;>
      simp [members, Event.fields, Event.kind, Event.kind?, Event.kinds, Event.nullable?, Event.required?,
        Event.member?, Event.ofMembers?, single?, Json.text?]

theorem distinct_members (e : StreamEvent) : Keyed.Distinct e.members := by
  obtain ⟨stream, event⟩ := e
  cases event with
  | record s =>
    obtain ⟨line, column, vars, ret, file, ts⟩ := s
    cases stream <;> cases file <;> cases ts <;>
      simp [members, Event.fields, Keyed.Distinct, Keyed.keys]
  | caseStart name suite =>
    cases stream <;> cases suite <;> simp [members, Event.fields, Keyed.Distinct, Keyed.keys]
  | _ => cases stream <;> simp [members, Event.fields, Keyed.Distinct, Keyed.keys]

/-- An event is readable if the bindings in it are. -/
theorem isReadable_toJson {e : StreamEvent}
    (h : ∀ s, e.event = .record s → (Json.object s.vars).IsReadable) : e.toJson.IsReadable := by
  refine ⟨e.distinct_members, ?_⟩
  change Json.MembersReadable e.members
  obtain ⟨stream, event⟩ := e
  cases event with
  | record s =>
    obtain ⟨hdistinct, hvars⟩ : Keyed.Distinct s.vars ∧ Json.MembersReadable s.vars := h s rfl
    obtain ⟨line, column, vars, ret, file, ts⟩ := s
    have hnumber (n : UInt64) : (Json.ofNat n.toNat).IsReadable := Json.isReadable_ofNat n.toNat_lt
    have hplace (n : UInt32) : (Json.ofNat n.toNat).IsReadable :=
      Json.isReadable_ofNat (Nat.lt_trans n.toNat_lt (by decide))
    cases stream <;> cases file <;> cases ts <;>
      simp_all [members, Event.fields, Json.IsReadable, Json.MembersReadable]
  | caseStart name suite =>
    have htexts (texts : List String) : (Json.ofTexts texts).IsReadable :=
      Json.areReadable_iff.2 (by simp [Json.IsReadable])
    cases stream <;> cases suite <;>
      simp [members, Event.fields, Json.IsReadable, Json.MembersReadable, htexts]
  | _ => cases stream <;> simp [members, Event.fields, Json.IsReadable, Json.MembersReadable]

/-- Its containers are nested as deep as the bindings in it, and once more. -/
theorem depth_toJson {e : StreamEvent}
    (h : ∀ s, e.event = .record s → (Json.object s.vars).depth < Json.depthLimit) :
    e.toJson.depth ≤ Json.depthLimit := by
  have hmembers : Json.memberDepth e.members < Json.depthLimit := by
    obtain ⟨stream, event⟩ := e
    cases event with
    | record s =>
      have hvars := h s rfl
      obtain ⟨line, column, vars, ret, file, ts⟩ := s
      cases stream <;> cases file <;> cases ts <;>
        simpa [members, Event.fields, Json.depth, Json.memberDepth, Json.ofNat] using hvars
    | caseStart name suite =>
      have htexts (texts : List String) : Json.depthOf (texts.map .text) = 0 :=
        Nat.le_zero.1 (Json.depthOf_le_iff.2 (by simp [Json.depth]))
      cases stream <;> cases suite <;>
        simp [members, Event.fields, Json.depth, Json.memberDepth, Json.ofTexts, htexts, Json.depthLimit]
    | _ => cases stream <;> simp [members, Event.fields, Json.depth, Json.memberDepth, Json.depthLimit]
  exact hmembers

/-- An event comes back from its text. -/
theorem ofText?_compactText {e : StreamEvent} (h : e.toJson.IsReadable)
    (hdepth : e.toJson.depth ≤ Json.depthLimit) : ofText? e.toJson.compactText = some e := by
  obtain ⟨hstream, hkind, hevent⟩ := e.ofMembers?_members
  have hlimit : Json.memberDepth e.members ≤ Json.depthLimit - 1 := Nat.le_sub_one_of_lt hdepth
  have hmembers := Json.members?_memberTrees e.members h.2 _ hlimit
  have htree : e.toJson.tree = .object (Json.memberTrees e.members) := rfl
  rw [ofText?, Json.rawOfText?_compactText _ h, Option.bind_some, htree, ofRaw?, hmembers]
  simp [hstream, hkind, hevent]

theorem compact_toJson (e : StreamEvent) :
    e.toJson.compact = '\x7b' :: (Json.compactMembers e.members ++ ['\x7d']) := rfl

/-- The text of an event starts and ends with a brace, so there are no blanks at its ends. -/
theorem trim_compactText (e : StreamEvent) : Text.trim e.toJson.compactText = e.toJson.compactText := by
  have hopen : Text.isWhiteSpace '\x7b' = false := rfl
  have hclose : Text.isWhiteSpace '\x7d' = false := rfl
  simp [Text.trim, Json.compactText, compact_toJson, hopen, hclose]

/-- A line tells the event that it was written for. -/
theorem eventOf?_compactText {e : StreamEvent} (h : e.toJson.IsReadable)
    (hdepth : e.toJson.depth ≤ Json.depthLimit) : eventOf? e.toJson.compactText = some e := by
  have hne : e.toJson.compactText.isEmpty = false := by simp [Json.compactText, compact_toJson]
  simp only [eventOf?, trim_compactText, hne]
  exact ofText?_compactText h hdepth

/-- An event is written as one line, without blanks at its ends, and is read from it again. Its bindings have
to be readable, and no container may be nested too deep. -/
theorem line_comes_back (e : StreamEvent)
    (hvars : ∀ s, e.event = .record s → (Json.object s.vars).IsReadable)
    (hdepth : e.toJson.depth ≤ Json.depthLimit) :
    '\n' ∉ e.toJson.compactText.toList ∧ Text.trim e.toJson.compactText = e.toJson.compactText ∧
      ofText? e.toJson.compactText = some e := by
  have hreadable : e.toJson.IsReadable := isReadable_toJson hvars
  refine ⟨?_, e.trim_compactText, ofText?_compactText hreadable hdepth⟩
  rw [Json.compactText, String.toList_ofList]
  exact Json.feed_not_mem_compact e.toJson hreadable

/-- A stream, the largest time and no file; a line feed in a name, a float, the least integer and a marker. -/
theorem line_comes_back_record :
    let vars : Members :=
      [ ("é\n\"", .array [.float 1.5, .int (-9223372036854775808)])
      , ("u", .object [("$stepwise", .text "undefined"), ("\x07", .text "😀")]) ]
    let e : StreamEvent := ⟨some "41:0", .record ⟨3, 0, vars, true, none, some 18446744073709551615⟩⟩
    (∀ s, e.event = .record s → (Json.object s.vars).IsReadable) ∧ e.toJson.depth ≤ Json.depthLimit ∧
      '\n' ∉ e.toJson.compactText.toList ∧ Text.trim e.toJson.compactText = e.toJson.compactText ∧
      ofText? e.toJson.compactText = some e := by
  intro vars e
  have hfloat : (Json.float 1.5).IsReadable := ⟨⟨false, [1], [5], none⟩, by decide +kernel, rfl⟩
  have hitems : (Json.array [.float 1.5, .int (-9223372036854775808)]).IsReadable :=
    ⟨hfloat, ⟨by decide, by decide⟩, trivial⟩
  have hvars : (Json.object vars).IsReadable :=
    ⟨by decide, hitems, ⟨by decide, trivial, trivial, trivial⟩, trivial⟩
  have hread : ∀ s, e.event = .record s → (Json.object s.vars).IsReadable := by
    intro s hs
    cases hs
    exact hvars
  have hdepth : e.toJson.depth ≤ Json.depthLimit := by decide
  exact ⟨hread, hdepth, line_comes_back e hread hdepth⟩

end StreamEvent

/-! ### Lines of bytes -/

/-- The bytes of a text. -/
def bytesOf (text : String) : List UInt8 := text.toUTF8.data.toList

/-- Only a line feed is encoded with the byte of one. -/
theorem feed_not_mem_utf8EncodeChar {c : Char} (hc : c ≠ '\n') : 0x0A ∉ String.utf8EncodeChar c := by
  have hvalue : c.val.toNat ≠ 10 := fun h => hc (Char.toNat_inj.1 h)
  have hbyte {n : Nat} (h : n % 256 ≠ 10) : (0x0A : UInt8) ≠ UInt8.ofNat n := by
    intro he
    have hn := congrArg UInt8.toNat he
    rw [UInt8.toNat_ofNat, UInt8.toNat_ofNat'] at hn
    exact h hn.symm
  unfold String.utf8EncodeChar
  generalize c.val.toNat = n at hvalue
  simp only
  split
  · simp only [List.mem_singleton]
    exact hbyte (by omega)
  · split
    · simp only [List.mem_cons, List.not_mem_nil, or_false, not_or]
      exact ⟨hbyte (by omega), hbyte (by omega)⟩
    · split
      · simp only [List.mem_cons, List.not_mem_nil, or_false, not_or]
        exact ⟨hbyte (by omega), hbyte (by omega), hbyte (by omega)⟩
      · simp only [List.mem_cons, List.not_mem_nil, or_false, not_or]
        exact ⟨hbyte (by omega), hbyte (by omega), hbyte (by omega), hbyte (by omega)⟩

/-- The bytes of a text are those of its characters. -/
theorem bytesOf_eq (text : String) : bytesOf text = text.toList.flatMap String.utf8EncodeChar := by
  rw [bytesOf, String.toUTF8, ← String.utf8Encode_toList, List.utf8Encode, List.data_toByteArray]

theorem feed_not_mem_bytesOf {text : String} (h : '\n' ∉ text.toList) : 0x0A ∉ bytesOf text := by
  rw [bytesOf_eq, List.mem_flatMap]
  rintro ⟨c, hc, hm⟩
  exact feed_not_mem_utf8EncodeChar (fun he => h (he ▸ hc)) hm

/-- Lines that are ended one by one are the lines of the whole. -/
theorem linesOf_ended {ls : List (List UInt8)} (h : ∀ l ∈ ls, 0x0A ∉ l) :
    linesOf (ls.flatMap fun l => l ++ [0x0A]) = ls := by
  have hline (l line r : List UInt8) (hl : 0x0A ∉ l) :
      linesFrom line (l ++ 0x0A :: r) = (line.reverse ++ l) :: linesFrom [] r := by
    induction l generalizing line with
    | nil => simp [linesFrom]
    | cons b l ih =>
      rw [List.mem_cons, not_or] at hl
      obtain ⟨hb, hl⟩ := hl
      simp [linesFrom, Ne.symm hb, ih (b :: line) hl]
  induction ls with
  | nil => rfl
  | cons l ls ih =>
    obtain ⟨hl, hls⟩ := List.forall_mem_cons.1 h
    rw [List.flatMap_cons, List.append_assoc, linesOf]
    exact (hline l [] _ hl).trans (congrArg (l :: ·) (ih hls))

theorem textLines_bytesOf (texts : List String) : textLines (texts.map bytesOf) = texts := by
  induction texts with
  | nil => rfl
  | cons s texts ih =>
    have hs : String.fromUTF8? ⟨(bytesOf s).toArray⟩ = some s := dif_pos s.isValidUTF8
    rw [List.map_cons, textLines, hs, ih]

/-- Events as a file, one to a line. -/
def written (es : List StreamEvent) : List UInt8 :=
  (es.map fun e => bytesOf e.toJson.compactText).flatMap fun l => l ++ [0x0A]

/-- A file tells the events that it was written for, and all its lines are texts. -/
theorem eventsIn_written (es : List StreamEvent) (h : ∀ e ∈ es, e.toJson.IsReadable)
    (hdepth : ∀ e ∈ es, e.toJson.depth ≤ Json.depthLimit) :
    eventsIn (written es) = es ∧
      (textLines (linesOf (written es))).length = (linesOf (written es)).length := by
  have hlines : linesOf (written es) = (es.map fun e => e.toJson.compactText).map bytesOf := by
    rw [written, linesOf_ended, List.map_map]
    · rfl
    · intro l hl
      obtain ⟨e, he, rfl⟩ := List.mem_map.1 hl
      apply feed_not_mem_bytesOf
      rw [Json.compactText, String.toList_ofList]
      exact Json.feed_not_mem_compact _ (h e he)
  rw [eventsIn, hlines, textLines_bytesOf]
  refine ⟨?_, (List.length_map bytesOf).symm⟩
  have hcomes : es.filterMap (eventOf? ∘ fun e => e.toJson.compactText) = es.filterMap some := by
    refine List.filterMap_congr fun e he => ?_
    rw [Function.comp_apply, StreamEvent.eventOf?_compactText (h e he) (hdepth e he)]
  rw [List.filterMap_map, hcomes, List.filterMap_some]

end StepTrace.Recording
