import Mathlib.Data.List.Forall2
import Mathlib.Logic.Relation
import StepTrace.Proofs.Recording.Tallies

/-!
Rows of a text that tell nothing. A row that is blank, or that is no event, may come or go, and blanks may be put
around an event: a recorder that takes the text carries out the same, its sink is offered the same steps, and the
tally is the same but for the malformed lines.
-/
namespace StepTrace.Recording

/-! ### The rows of a text -/

/-- The rows of a text, with the line feeds between them taken away. -/
def rowsOf (text : String) : List (List Char) := text.toList.splitOn '\n'

/-- Rows with line feeds between them. -/
def ofRows (rows : List (List Char)) : String := String.ofList (['\n'].intercalate rows)

theorem ofRows_rowsOf (text : String) : ofRows (rowsOf text) = text := by
  rw [ofRows, rowsOf, List.intercalate_splitOn, String.ofList_toList]

/-- Rows without line feeds in them. -/
def AreRows (rows : List (List Char)) : Prop := ∀ row ∈ rows, '\n' ∉ row

theorem areRows_rowsOf (text : String) : AreRows (rowsOf text) := by
  rw [rowsOf, List.splitOn]
  induction text.toList with
  | nil => simp [AreRows]
  | cons c cs ih =>
    rw [List.splitOnP_cons_eq_if_modifyHead]
    split
    · exact List.forall_mem_cons.2 ⟨List.not_mem_nil, ih⟩
    · next hc =>
      cases hrows : cs.splitOnP (· == '\n') with
      | nil => simp [AreRows]
      | cons row rows =>
        rw [hrows] at ih
        obtain ⟨hrow, hrest⟩ := List.forall_mem_cons.1 ih
        have hne : c ≠ '\n' := by simpa using hc
        refine List.forall_mem_cons.2 ⟨?_, hrest⟩
        simp [Ne.symm hne, hrow]

theorem linesOf_of_no_feed {bytes : List UInt8} (h : 0x0A ∉ bytes) :
    linesOf bytes = if bytes = [] then [] else [bytes] := by
  have hline (line : List UInt8) :
      linesFrom line bytes = if line ++ bytes = [] then [] else [line.reverse ++ bytes] := by
    induction bytes generalizing line with
    | nil => cases line <;> simp [linesFrom]
    | cons b bytes ih =>
      rw [List.mem_cons, not_or] at h
      simp [linesFrom, Ne.symm h.1, ih h.2]
  exact hline []

/-- The lines of a file are the rows of its text, but that nothing after the last line feed is no line. -/
theorem linesOf_ofRows {rows : List (List Char)} (h : AreRows rows) :
    ∃ texts rest : List String, rows.map String.ofList = texts ++ rest ∧ (rest = [] ∨ rest = [""]) ∧
      linesOf (bytesOf (ofRows rows)) = texts.map bytesOf := by
  induction rows with
  | nil => exact ⟨[], [], rfl, .inl rfl, rfl⟩
  | cons row rows ih =>
    obtain ⟨hrow, hrows⟩ := List.forall_mem_cons.1 h
    have hfeed : 0x0A ∉ bytesOf (String.ofList row) :=
      feed_not_mem_bytesOf (by rwa [String.toList_ofList])
    cases rows with
    | nil =>
      have hone : ofRows [row] = String.ofList row := by rw [ofRows, List.intercalate_singleton]
      rw [hone, linesOf_of_no_feed hfeed]
      by_cases hempty : row = []
      · subst hempty
        exact ⟨[], [""], rfl, .inr rfl, rfl⟩
      · have hne : bytesOf (String.ofList row) ≠ [] := by
          obtain ⟨c, cs, rfl⟩ := List.exists_cons_of_ne_nil hempty
          have hlength := String.length_utf8EncodeChar c
          have hpos := c.utf8Size_pos
          rw [bytesOf_eq, String.toList_ofList, List.flatMap_cons]
          intro hnil
          rw [(List.append_eq_nil_iff.1 hnil).1, List.length_nil] at hlength
          omega
        exact ⟨[String.ofList row], [], rfl, .inl rfl, if_neg hne⟩
    | cons next rows =>
      obtain ⟨texts, rest, hsplit, hrest, hlines⟩ := ih hrows
      refine ⟨String.ofList row :: texts, rest, by rw [List.map_cons, hsplit, List.cons_append], hrest, ?_⟩
      have hbytes : bytesOf (ofRows (row :: next :: rows)) =
          (bytesOf (String.ofList row) ++ [0x0A]) ++ bytesOf (ofRows (next :: rows)) := by
        have hnewline : String.utf8EncodeChar '\n' = [0x0A] := by decide
        rw [ofRows, ofRows, List.intercalate_cons_cons]
        simp only [bytesOf_eq, String.toList_ofList, List.flatMap_append, List.flatMap_singleton, hnewline]
      have hone : linesOf (bytesOf (String.ofList row) ++ [0x0A]) = [bytesOf (String.ofList row)] := by
        simpa using @linesOf_ended [bytesOf (String.ofList row)] (by simpa using hfeed)
      rw [hbytes, linesOf_append (.inr (by simp)), hone, hlines]
      rfl

/-! ### What rows tell -/

/-- The event that a row tells, if it tells one. -/
def eventOfRow? (row : List Char) : Option StreamEvent := eventOf? (String.ofList row)

theorem eventOfRow?_of_isBlank {row : List Char} (h : Text.IsBlank row) : eventOfRow? row = none := by
  have hempty : (Text.trim (String.ofList row)).isEmpty :=
    (Text.trim_isEmpty_iff _).2 (by rwa [String.toList_ofList])
  simp [eventOfRow?, eventOf?, hempty]

theorem eventOfRow?_pad {a b : List Char} (ha : Text.IsBlank a) (hb : Text.IsBlank b) (row : List Char) :
    eventOfRow? (a ++ row ++ b) = eventOfRow? row := by
  simp only [eventOfRow?, eventOf?, Text.trim_pad ha hb]

theorem isMalformed_ofList (row : List Char) :
    isMalformed (String.ofList row) ↔ ¬ Text.IsBlank row ∧ (eventOfRow? row).isNone := by
  have hblank := Text.trim_isEmpty_iff (String.ofList row)
  rw [String.toList_ofList] at hblank
  rw [← hblank]
  cases htrim : (Text.trim (String.ofList row)).isEmpty <;> simp [isMalformed, eventOfRow?, eventOf?, htrim]

/-- All lines of a text are texts, and they tell what its rows tell. -/
theorem told_by_rows {rows : List (List Char)} (h : AreRows rows) :
    (∀ l ∈ linesOf (bytesOf (ofRows rows)), IsText l) ∧
      eventsIn (bytesOf (ofRows rows)) = rows.filterMap eventOfRow? ∧
      malformedIn (bytesOf (ofRows rows)) =
        rows.countP fun row => ¬ Text.IsBlank row ∧ (eventOfRow? row).isNone := by
  obtain ⟨texts, rest, hsplit, hrest, hlines⟩ := linesOf_ofRows h
  have hempty : eventOf? "" = none := rfl
  have hfine : isMalformed "" = false := rfl
  refine ⟨?_, ?_, ?_⟩
  · rw [hlines, ← length_textLines_eq_iff, textLines_bytesOf, List.length_map]
  · have hevents : (rows.map String.ofList).filterMap eventOf? = texts.filterMap eventOf? := by
      rcases hrest with rfl | rfl <;> simp [hsplit, hempty]
    have hrow : eventOf? ∘ String.ofList = eventOfRow? := funext fun row => by rw [Function.comp, eventOfRow?]
    rw [eventsIn, hlines, textLines_bytesOf, ← hevents, List.filterMap_map, hrow]
  · have hcount : (rows.map String.ofList).countP isMalformed = texts.countP isMalformed := by
      rcases hrest with rfl | rfl <;> simp [hsplit, hfine]
    rw [malformedIn, hlines, textLines_bytesOf, ← hcount, List.countP_map]
    refine List.countP_congr fun row _ => ?_
    simpa using isMalformed_ofList row

/-! ### Changes that no event sees -/

/-- A row that is no event goes, a blank row comes, or blanks are put around a row. -/
inductive Retouch : List (List Char) → List (List Char) → Prop
  | drop (before after : List (List Char)) {row : List Char} (one : '\n' ∉ row)
      (none : eventOfRow? row = none) : Retouch (before ++ row :: after) (before ++ after)
  | add (before after : List (List Char)) {row : List Char} (one : '\n' ∉ row)
      (blank : Text.IsBlank row) : Retouch (before ++ after) (before ++ row :: after)
  | pad (before after : List (List Char)) (row : List Char) {a b : List Char} (one : '\n' ∉ a ++ b)
      (left : Text.IsBlank a) (right : Text.IsBlank b) :
      Retouch (before ++ row :: after) (before ++ (a ++ row ++ b) :: after)

variable {rows rows' : List (List Char)}

theorem Retouch.told (h : Retouch rows rows') :
    (AreRows rows ↔ AreRows rows') ∧ rows'.filterMap eventOfRow? = rows.filterMap eventOfRow? := by
  cases h with
  | drop before after one none => simp [AreRows, or_imp, forall_and, one, none]
  | add before after one blank =>
    simp [AreRows, or_imp, forall_and, one, eventOfRow?_of_isBlank blank]
  | pad before after row one left right =>
    rw [List.mem_append, not_or] at one
    refine ⟨by simp [AreRows, or_imp, forall_and, one], ?_⟩
    rw [List.filterMap_append, List.filterMap_append, List.filterMap_cons, List.filterMap_cons,
      eventOfRow?_pad left right]

/-- However often rows are changed like that, forwards or backwards, they tell the same events. -/
theorem told_of_eqvGen (h : Relation.EqvGen Retouch rows rows') :
    (AreRows rows ↔ AreRows rows') ∧ rows'.filterMap eventOfRow? = rows.filterMap eventOfRow? := by
  induction h with
  | rel _ _ h => exact h.told
  | refl _ => exact ⟨Iff.rfl, rfl⟩
  | symm _ _ _ ih => exact ⟨ih.1.symm, ih.2.symm⟩
  | trans _ _ _ _ _ first second => exact ⟨first.1.trans second.1, second.2.trans first.2⟩

/-- All rows that tell no event may go at once. -/
theorem eqvGen_filter (h : AreRows rows) :
    Relation.EqvGen Retouch rows (rows.filter fun row => (eventOfRow? row).isSome) := by
  have hbefore (before : List (List Char)) : Relation.EqvGen Retouch (before ++ rows)
      (before ++ rows.filter fun row => (eventOfRow? row).isSome) := by
    induction rows generalizing before with
    | nil => exact .refl _
    | cons row rows ih =>
      obtain ⟨hrow, hrows⟩ := List.forall_mem_cons.1 h
      cases he : eventOfRow? row with
      | none =>
        have hdrop : Relation.EqvGen Retouch (before ++ row :: rows) (before ++ rows) :=
          .rel _ _ (.drop before rows hrow he)
        simpa [he] using hdrop.trans _ _ _ (ih hrows before)
      | some e => simpa [he] using ih hrows (before ++ [row])
  exact hbefore []

/-- A text with a carriage return before every line feed. -/
def withReturns (text : String) : String :=
  String.ofList (text.toList.flatMap fun c => if c = '\n' then ['\r', '\n'] else [c])

/-- Rows with a carriage return at the end of each but the last. -/
def returned : List (List Char) → List (List Char)
  | [] => []
  | [row] => [row]
  | row :: next :: rows => (row ++ ['\r']) :: returned (next :: rows)

theorem eqvGen_returned (rows : List (List Char)) : Relation.EqvGen Retouch rows (returned rows) := by
  have hbefore (before : List (List Char)) :
      Relation.EqvGen Retouch (before ++ rows) (before ++ returned rows) := by
    induction rows generalizing before with
    | nil => exact .refl _
    | cons row rows ih =>
      cases rows with
      | nil => exact .refl _
      | cons next rows =>
        have hpad : Relation.EqvGen Retouch (before ++ row :: next :: rows)
            (before ++ ([] ++ row ++ ['\r']) :: next :: rows) :=
          .rel _ _ (.pad before (next :: rows) row (by decide) (by decide) (by decide))
        have hrest := ih (before ++ [row ++ ['\r']])
        rw [List.append_assoc, List.append_assoc] at hrest
        exact hpad.trans _ _ _ hrest
  exact hbefore []

theorem ofRows_returned (h : AreRows rows) : ofRows (returned rows) = withReturns (ofRows rows) := by
  have hrow {row : List Char} (h : '\n' ∉ row) :
      (row.flatMap fun c => if c = '\n' then ['\r', '\n'] else [c]) = row := by
    induction row with
    | nil => rfl
    | cons c row ih =>
      rw [List.mem_cons, not_or] at h
      simp [Ne.symm h.1, ih h.2]
  rw [ofRows, withReturns, ofRows, String.toList_ofList]
  congr 1
  induction rows with
  | nil => rfl
  | cons row rows ih =>
    obtain ⟨hfirst, hrows⟩ := List.forall_mem_cons.1 h
    cases rows with
    | nil => simp [returned, hrow hfirst]
    | cons next rows =>
      have hne : returned (next :: rows) ≠ [] := by cases rows <;> simp [returned]
      rw [returned, List.intercalate_cons_of_ne_nil hne, ih hrows, List.intercalate_cons_cons]
      simp [hrow hfirst]

/-! ### Taking a text that was changed -/

variable {σ : Type}

/-- Sinks that are alike, and the same calls but for the times that were read from the clock. -/
def Sink.SameCalls (Like : σ → σ → Prop) (now later : UInt64) (s s' : σ × List (Offer × Bool)) : Prop :=
  Like s.1 s'.1 ∧ List.Forall₂ (fun c c' => c.1.Retimed now later c'.1 ∧ c'.2 = c.2) s.2 s'.2

theorem Sink.timeless_watched {accept : Sink σ} {Like : σ → σ → Prop} {now later : UInt64}
    (h : accept.Timeless Like now later) :
    accept.watched.Timeless (Sink.SameCalls Like now later) now later := by
  rintro ⟨s, calls⟩ ⟨s', calls'⟩ o o' ⟨hs, hcalls⟩ ho
  obtain ⟨hnext, hkept⟩ := h s s' o o' hs ho
  exact ⟨⟨hnext, List.rel_append hcalls (.cons ⟨ho, hkept⟩ .nil)⟩, hkept⟩

/-- Texts that tell the same events are taken alike, but for the malformed lines. -/
theorem ingest_of_told (accept : Sink σ) (now : UInt64) (r : Recorder σ) {bytes bytes' : List UInt8}
    (texts : ∀ l ∈ linesOf bytes, IsText l) (texts' : ∀ l ∈ linesOf bytes', IsText l)
    (events : eventsIn bytes' = eventsIn bytes) :
    ∃ t, (ingest accept now r bytes).2 = some t ∧ t.malformedLines = malformedIn bytes ∧
      ingest accept now r bytes' =
        ((ingest accept now r bytes).1, some { t with malformedLines := malformedIn bytes' }) := by
  rw [ingest_eq, ingest_eq, if_pos texts, if_pos texts', events]
  refine ⟨_, rfl, rfl, ?_⟩
  simp only [tallyOf, streamsIn, events]

/-- What tells no event leaves no trace. Every text is taken to its end, and its malformed lines are the rows that
are neither blank nor events. Rows that are blank or no events may come and go, and blanks be put around rows or taken
away, in any number: the recorder and its sink are left the same, the sink is offered the same steps and gives the
same answers, and the tally differs in the malformed lines alone. If the clock shows another time, this holds of sinks
that it does not matter to, and the steps differ in times that were read from it. Rows that are no events may go all
at once, and every line feed may become a carriage return and a line feed. -/
theorem ingest_retouched (accept : Sink σ) (r : Recorder σ) (text : String) :
    let take (now : UInt64) (text : String) := ingest accept now r (bytesOf text)
    let watch (now : UInt64) (text : String) := ingest accept.watched now (r.watch []) (bytesOf text)
    (∀ now, ∃ t, (take now text).2 = some t ∧ t.malformedLines =
      (rowsOf text).countP fun row => ¬ Text.IsBlank row ∧ (eventOfRow? row).isNone) ∧
    (∀ rows, Relation.EqvGen Retouch (rowsOf text) rows →
      (∀ now, (take now (ofRows rows)).1 = (take now text).1 ∧
        (watch now (ofRows rows)).1.sink.2 = (watch now text).1.sink.2 ∧
        ∀ t ∈ (take now text).2, ∃ m, (take now (ofRows rows)).2 = some { t with malformedLines := m }) ∧
      ∀ now later Like, accept.Timeless Like now later → Like r.sink r.sink →
        (watch now text).1.Alike (Sink.SameCalls Like now later) (watch later (ofRows rows)).1 ∧
        ∀ t ∈ (take now text).2, ∃ m, (take later (ofRows rows)).2 = some { t with malformedLines := m }) ∧
    Relation.EqvGen Retouch (rowsOf text) ((rowsOf text).filter fun row => (eventOfRow? row).isSome) ∧
    ∃ rows, ofRows rows = withReturns text ∧ Relation.EqvGen Retouch (rowsOf text) rows := by
  intro take watch
  have hrows := areRows_rowsOf text
  obtain ⟨htexts, hevents, hmalformed⟩ := told_by_rows hrows
  rw [ofRows_rowsOf] at htexts hevents hmalformed
  refine ⟨fun now => ?_, fun rows h => ?_, eqvGen_filter hrows, returned (rowsOf text), ?_,
    eqvGen_returned _⟩
  · obtain ⟨t, ht, hcount, -⟩ := ingest_of_told accept now r htexts htexts rfl
    exact ⟨t, ht, hcount.trans hmalformed⟩
  · obtain ⟨hsame, htold⟩ := told_of_eqvGen h
    obtain ⟨htexts', hevents', -⟩ := told_by_rows (hsame.1 hrows)
    have events : eventsIn (bytesOf (ofRows rows)) = eventsIn (bytesOf text) := by
      rw [hevents', htold, hevents]
    have hwatch (now : UInt64) : (watch now (ofRows rows)).1 = (watch now text).1 := by
      obtain ⟨_, -, -, hout⟩ := ingest_of_told accept.watched now (r.watch []) htexts htexts' events
      exact (Prod.ext_iff.1 hout).1
    constructor
    · intro now
      obtain ⟨t, ht, -, hout⟩ := ingest_of_told accept now r htexts htexts' events
      refine ⟨(Prod.ext_iff.1 hout).1, by rw [hwatch], fun u hu => ?_⟩
      obtain rfl : t = u := Option.some.inj (ht.symm.trans hu)
      exact ⟨_, (Prod.ext_iff.1 hout).2⟩
    · intro now later Like timeless self
      have hstart : (r.watch []).Alike (Sink.SameCalls Like now later) (r.watch []) :=
        ⟨rfl, rfl, rfl, rfl, self, .nil⟩
      have hself : r.Alike Like r := ⟨rfl, rfl, rfl, rfl, self⟩
      obtain ⟨halike, -⟩ := hstart.ingest (Sink.timeless_watched timeless) (bytesOf text)
      obtain ⟨-, htally⟩ := hself.ingest timeless (bytesOf text)
      obtain ⟨t, ht, -, hout⟩ := ingest_of_told accept later r htexts htexts' events
      refine ⟨(hwatch later).symm ▸ halike, fun u hu => ?_⟩
      obtain rfl : t = u := Option.some.inj (ht.symm.trans (htally.trans hu))
      exact ⟨_, (Prod.ext_iff.1 hout).2⟩
  · rw [ofRows_returned hrows, ofRows_rowsOf]

/-- The start of a case and a step without a time; two rows between them that tell nothing go, blanks come to both
ends of the last one, and a row that is no event follows it. -/
theorem ingest_retouched_rows :
    let start := "\x7b\"kind\":\"case_start\",\"name\":\"t\"\x7d".toList
    let record := "\x7b\"kind\":\"record\",\"line\":1,\"column\":0\x7d".toList
    let text := ofRows [start, ['\t', '\u2003'], ['?'], record]
    let rows := [start, ['\t'] ++ record ++ ['\u2003', '\r'], ['\x7b', '\x7d']]
    let r := Recorder.fresh {} (0, [])
    let watch (now : UInt64) (text : String) := ingest (Sink.list []).watched now (r.watch []) (bytesOf text)
    Relation.EqvGen Retouch (rowsOf text) rows ∧
      (ingest (Sink.list []) 5 r (bytesOf text)).2 = some ⟨2, 1, 1, 1, 0, 1⟩ ∧
      (∃ m, (ingest (Sink.list []) 5 r (bytesOf (ofRows rows))).2 = some ⟨2, 1, 1, 1, 0, m⟩) ∧
      (ingest (Sink.list []) 5 r (bytesOf (ofRows rows))).1 = (ingest (Sink.list []) 5 r (bytesOf text)).1 ∧
      (watch 5 text).1.Alike (Sink.SameCalls Sink.SameList 5 6) (watch 6 (ofRows rows)).1 := by
  intro start record text rows r watch
  have hrows : rowsOf text = [start, ['\t', '\u2003'], ['?'], record] := by decide +kernel
  have hnone (row : List Char) (h : (eventOfRow? row).isNone) : eventOfRow? row = none :=
    Option.isNone_iff_eq_none.1 h
  have hblank : Retouch [start, ['\t', '\u2003'], ['?'], record] [start, ['?'], record] :=
    .drop [start] [['?'], record] (by decide) (hnone _ (by decide +kernel))
  have hbad : Retouch [start, ['?'], record] [start, record] :=
    .drop [start] [record] (by decide) (hnone _ (by decide +kernel))
  have hpad : Retouch [start, record] [start, ['\t'] ++ record ++ ['\u2003', '\r']] :=
    .pad [start] [] record (by decide) (by decide) (by decide)
  have hadded : Retouch rows [start, ['\t'] ++ record ++ ['\u2003', '\r']] :=
    .drop [start, ['\t'] ++ record ++ ['\u2003', '\r']] [] (by decide) (hnone _ (by decide +kernel))
  have hchanged : Relation.EqvGen Retouch (rowsOf text) rows := by
    rw [hrows]
    exact (Relation.EqvGen.rel _ _ hblank).trans _ _ _ ((Relation.EqvGen.rel _ _ hbad).trans _ _ _
      ((Relation.EqvGen.rel _ _ hpad).trans _ _ _ (Relation.EqvGen.rel _ _ hadded).symm))
  have taken : (ingest (Sink.list []) 5 r (bytesOf text)).2 = some ⟨2, 1, 1, 1, 0, 1⟩ := by decide +kernel
  obtain ⟨-, hsame, -⟩ := ingest_retouched (Sink.list []) r text
  obtain ⟨hclock, hclocks⟩ := hsame rows hchanged
  obtain ⟨hrecorder, -, htally⟩ := hclock 5
  obtain ⟨halike, -⟩ := hclocks 5 6 Sink.SameList (Sink.timeless_list [] 5 6) ⟨rfl, rfl⟩
  exact ⟨hchanged, taken, htally _ taken, hrecorder, halike⟩

end StepTrace.Recording
