import StepTrace.Proofs.Recording.Appended
import StepTrace.Proofs.Recording.Refusals
import StepTrace.Proofs.Text.Blank

/-!
What the tally of a file counts. The sink is watched while the file is taken: the steps that it is offered, and
which of them it takes, are the ones that the tally counts, and the rest of the tally can be counted on the lines
of the file. What the recorder had done before does not matter.
-/
namespace StepTrace.Recording

variable {σ : Type}

/-! ### The lines of a file -/

/-- A line that is read holds the bytes of its text. -/
theorem bytesOf_of_fromUTF8? {line : List UInt8} {text : String}
    (h : String.fromUTF8? ⟨line.toArray⟩ = some text) : bytesOf text = line := by
  unfold String.fromUTF8? at h
  split at h
  · cases h
    rfl
  · cases h

theorem map_bytesOf_textLines {ls : List (List UInt8)} (h : ∀ l ∈ ls, IsText l) :
    (textLines ls).map bytesOf = ls := by
  induction ls with
  | nil => rfl
  | cons l ls ih =>
    obtain ⟨hl, hls⟩ := List.forall_mem_cons.1 h
    obtain ⟨text, htext⟩ := Option.isSome_iff_exists.1 hl
    simp [textLines, htext, ih hls, bytesOf_of_fromUTF8? htext]

/-- A line that is not blank tells an event or is malformed, and never both. -/
theorem length_filterMap_add_countP (texts : List String) :
    (texts.filterMap eventOf?).length + texts.countP isMalformed =
      texts.countP fun text => ¬ Text.IsBlank text.toList := by
  induction texts with
  | nil => rfl
  | cons text texts ih =>
    have hblank := Text.trim_isEmpty_iff text
    rw [List.filterMap_cons, List.countP_cons, List.countP_cons, ← ih]
    by_cases h : Text.IsBlank text.toList
    · have htrim := hblank.2 h
      simp [eventOf?, isMalformed, htrim, h]
    · have htrim : (Text.trim text).isEmpty = false := by simpa using mt hblank.1 h
      cases he : StreamEvent.ofText? (Text.trim text) <;> simp [eventOf?, isMalformed, htrim, h, he] <;> omega

/-! ### The tally -/

theorem countP_actsAt (p : Operation → Bool) (now : UInt64) (es : List StreamEvent) :
    (actsAt now es).countP (fun a => p a.op) = es.countP fun e => p e.event.operation := by
  rw [actsAt, List.countP_map]
  rfl

theorem isRecord_operation (e : Event) : e.operation.isRecord ↔ e.kind = "record" := by
  cases e <;> simp [Event.operation, Operation.isRecord, Event.kind]

theorem startsCase_operation (e : Event) : e.operation.startsCase ↔ e.kind = "case_start" := by
  cases e <;> simp [Event.operation, Operation.startsCase, Event.kind]

/-- A file of events leaves a watched recorder with the list of what was offered and answered, and with the same
tally. -/
theorem ingest_watched (accept : Sink σ) (now : UInt64) (r : Recorder σ) (bytes : List UInt8) :
    ingest accept.watched now (r.watch []) bytes =
      ((ingest accept now r bytes).1.watch (r.calls accept (actsAt now (eventsIn bytes))),
        (ingest accept now r bytes).2) := by
  rw [ingest_eq, ingest_eq, Recorder.run_watched, List.nil_append]
  rfl

/-- A file that is taken to its end, by a recorder that may have taken others before. With the sink watched, the
recorder does the same and gets the same tally; and the tally counts the lines that are not blank as events or as
malformed, the events that start a case, the records, which are the steps that the sink was offered, those of them
that it took, and the different streams that the events belong to. -/
theorem tally_of_ingest (accept : Sink σ) (now : UInt64) (r : Recorder σ) (bytes : List UInt8) (t : Tally)
    (taken : (ingest accept now r bytes).2 = some t) :
    ∃ texts : List String, linesOf bytes = texts.map bytesOf ∧
      let events := texts.filterMap eventOf?
      let seen := ingest accept.watched now (r.watch []) bytes
      let calls := seen.1.sink.2
      seen.1 = (ingest accept now r bytes).1.watch calls ∧ seen.2 = some t ∧
      t.events = events.length ∧
      t.events + t.malformedLines = texts.countP (fun text => ¬ Text.IsBlank text.toList) ∧
      t.cases = events.countP (fun e => e.event.kind = "case_start") ∧
      t.stepsWritten + t.stepsDropped = events.countP (fun e => e.event.kind = "record") ∧
      t.stepsWritten + t.stepsDropped = calls.length ∧
      t.stepsWritten = calls.countP Prod.snd ∧
      t.streams = (events.map fun e => e.stream.getD "").toFinset.card := by
  have htexts : ∀ l ∈ linesOf bytes, IsText l := (isSome_ingest accept now r bytes).1 (by simp [taken])
  have hlines : linesOf bytes = (textLines (linesOf bytes)).map bytesOf := (map_bytesOf_textLines htexts).symm
  let acts := actsAt now (eventsIn bytes)
  have htally : t = tallyOf r (r.run accept acts) bytes := by
    rw [ingest_eq, if_pos htexts] at taken
    exact (Option.some.inj taken).symm
  obtain ⟨hwritten, hboth⟩ := Recorder.counts_run accept r acts
  have hcases := Recorder.cases_add_run accept r acts
  have hrecords := Recorder.length_calls accept r acts
  rw [countP_actsAt Operation.isRecord] at hrecords
  rw [countP_actsAt Operation.startsCase] at hcases
  have hkind (p : Operation → Bool) (k : String)
      (hp : ∀ e : Event, p e.operation ↔ e.kind = k) :
      (eventsIn bytes).countP (fun e => p e.event.operation) =
        (eventsIn bytes).countP fun e => e.event.kind = k := by
    refine List.countP_congr fun e _ => ?_
    simpa using hp e.event
  rw [hkind _ _ isRecord_operation] at hrecords
  rw [hkind _ _ startsCase_operation] at hcases
  refine ⟨textLines (linesOf bytes), hlines, ?_⟩
  simp only [ingest_watched, taken]
  subst htally
  have hsum : (r.run accept acts).written - r.written + ((r.run accept acts).dropped - r.dropped) =
      (r.calls accept acts).length := by
    have hle : (r.calls accept acts).countP Prod.snd ≤ (r.calls accept acts).length := List.countP_le_length
    omega
  refine ⟨rfl, trivial, rfl, length_filterMap_add_countP _, ?_, ?_, ?_, ?_, rfl⟩
  · exact (congrArg (· - r.ledger.cases) hcases).trans (Nat.add_sub_cancel_left ..)
  · exact hsum.trans hrecords
  · exact hsum
  · exact (congrArg (· - r.written) hwritten).trans (Nat.add_sub_cancel_left ..)

/-- Two streams, one of which is named and not named, in the second file that a recorder takes; and a sink that
refuses its third call. -/
theorem tally_of_second_file :
    let accept := Sink.list [3]
    let r := (ingest accept 4 (Recorder.fresh {} (0, [])) someLines).1
    let bytes := bytesOf ("\x7b\"kind\":\"case_start\",\"name\":\"t\"\x7d\n \n?\n" ++
      "\x7b\"stream\":\"\",\"kind\":\"record\",\"line\":1,\"column\":0\x7d\n" ++
      "\x7b\"stream\":\"w\",\"kind\":\"record\",\"line\":2,\"column\":0\x7d")
    (ingest accept 5 r bytes).2 = some ⟨3, 2, 1, 1, 1, 1⟩ ∧
      ∃ texts : List String, linesOf bytes = texts.map bytesOf ∧
        let events := texts.filterMap eventOf?
        let calls := (ingest accept.watched 5 (r.watch []) bytes).1.sink.2
        3 + 1 = texts.countP (fun text => ¬ Text.IsBlank text.toList) ∧
          2 = events.countP (fun e => e.event.kind = "record") ∧ 2 = calls.length ∧
          1 = calls.countP Prod.snd ∧ 2 = (events.map fun e => e.stream.getD "").toFinset.card := by
  intro accept r bytes
  have taken : (ingest accept 5 r bytes).2 = some ⟨3, 2, 1, 1, 1, 1⟩ := by decide +kernel
  obtain ⟨texts, hlines, -, -, -, hlength, -, hrecords, hcalls, hkept, hstreams⟩ :=
    tally_of_ingest accept 5 r bytes _ taken
  exact ⟨taken, texts, hlines, hlength, hrecords, hcalls, hkept, hstreams⟩

end StepTrace.Recording
