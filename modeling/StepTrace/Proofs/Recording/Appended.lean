import Mathlib.Data.Finset.Card
import StepTrace.Proofs.Recording.Wire

/-!
Files of events put one after the other. Lines are taken one by one, so a file whose last line is ended
leaves a recorder just where the rest finds it, whatever the recorder had done before. A line that is no
text ends the run; the lines before it have been taken.
-/
namespace StepTrace.Recording

/-! ### Lines -/

/-- What follows these bytes begins a line. -/
def EndsLine (bytes : List UInt8) : Prop := bytes = [] ∨ bytes.getLast? = some 0x0A

instance (bytes : List UInt8) : Decidable (EndsLine bytes) := inferInstanceAs (Decidable (_ ∨ _))

/-- A line that can be read. -/
def IsText (line : List UInt8) : Prop := (String.fromUTF8? ⟨line.toArray⟩).isSome

instance (line : List UInt8) : Decidable (IsText line) := inferInstanceAs (Decidable (_ = true))

theorem linesFrom_append {before : List UInt8} (h : before.getLast? = some 0x0A)
    (line after : List UInt8) :
    linesFrom line (before ++ after) = linesFrom line before ++ linesOf after := by
  induction before generalizing line with
  | nil => cases h
  | cons b before ih =>
    rw [List.cons_append, linesFrom, linesFrom]
    cases before with
    | nil =>
      obtain rfl : b = 0x0A := by simpa using h
      rfl
    | cons c before =>
      have hlast : (c :: before).getLast? = some 0x0A := by rwa [List.getLast?_cons_cons] at h
      rw [ih hlast, ih hlast]
      split <;> rfl

/-- The lines of a file whose last line is ended, and those of what follows it. -/
theorem linesOf_append {before : List UInt8} (h : EndsLine before) (after : List UInt8) :
    linesOf (before ++ after) = linesOf before ++ linesOf after := by
  rcases h with rfl | h
  · rfl
  · exact linesFrom_append h [] after

theorem linesFrom_eq_cons {line bytes l : List UInt8} {ls : List (List UInt8)}
    (h : linesFrom line bytes = l :: ls) :
    ∃ rest, l = line.reverse ++ rest ∧ 0x0A ∉ rest ∧
      (bytes = rest ∧ ls = [] ∨ ∃ after, bytes = rest ++ 0x0A :: after ∧ ls = linesOf after) := by
  induction bytes generalizing line with
  | nil =>
    rw [linesFrom] at h
    split at h
    · cases h
    · cases h
      exact ⟨[], by simp, by simp, .inl ⟨rfl, rfl⟩⟩
  | cons b bytes ih =>
    rw [linesFrom] at h
    split at h
    · next hb =>
      subst hb
      cases h
      exact ⟨[], by simp, by simp, .inr ⟨bytes, rfl, rfl⟩⟩
    · next hb =>
      obtain ⟨rest, rfl, hrest, hcase⟩ := ih h
      refine ⟨b :: rest, by simp, by simp [hrest, Ne.symm hb], ?_⟩
      rcases hcase with ⟨rfl, rfl⟩ | ⟨after, rfl, rfl⟩
      · exact .inl ⟨rfl, rfl⟩
      · exact .inr ⟨after, rfl, rfl⟩

/-- The place of a line in its file. -/
theorem exists_before_line {bytes l : List UInt8} {ls ms : List (List UInt8)}
    (h : linesOf bytes = ls ++ l :: ms) :
    ∃ before after, bytes = before ++ l ++ after ∧ EndsLine before ∧ linesOf before = ls ∧
      0x0A ∉ l ∧ (after = [] ∨ after.head? = some 0x0A) := by
  induction ls generalizing bytes with
  | nil =>
    obtain ⟨rest, hl, hrest, hcase⟩ := linesFrom_eq_cons h
    obtain rfl : l = rest := hl
    refine ⟨[], ?_⟩
    rcases hcase with ⟨rfl, -⟩ | ⟨after, rfl, -⟩
    · exact ⟨[], by simp, .inl rfl, rfl, hrest, .inl rfl⟩
    · exact ⟨0x0A :: after, rfl, .inl rfl, rfl, hrest, .inr rfl⟩
  | cons first ls ih =>
    obtain ⟨rest, hfirst, hrest, hcase⟩ := linesFrom_eq_cons h
    obtain rfl : first = rest := hfirst
    rcases hcase with ⟨-, hnone⟩ | ⟨more, rfl, hmore⟩
    · simp at hnone
    · obtain ⟨before, after, rfl, hends, hlines, hl, hafter⟩ := ih hmore.symm
      have hfirst : EndsLine (first ++ [0x0A]) := .inr (by simp)
      refine ⟨first ++ 0x0A :: before, after, by simp, ?_, ?_, hl, hafter⟩
      · rcases hends with rfl | hlast
        · exact hfirst
        · exact .inr (by simp [List.getLast?_append, List.getLast?_cons, hlast])
      · have hone : linesOf (first ++ [0x0A]) = [first] := by
          simpa using @linesOf_ended [first] (by simpa using hrest)
        rw [show first ++ 0x0A :: before = (first ++ [0x0A]) ++ before by simp,
          linesOf_append hfirst, hone, hlines]
        rfl

theorem textLines_append {ls : List (List UInt8)} (h : ∀ l ∈ ls, IsText l) (ms : List (List UInt8)) :
    textLines (ls ++ ms) = textLines ls ++ textLines ms := by
  induction ls with
  | nil => rfl
  | cons l ls ih =>
    obtain ⟨hl, hls⟩ := List.forall_mem_cons.1 h
    obtain ⟨text, htext⟩ := Option.isSome_iff_exists.1 hl
    simp [textLines, htext, ih hls]

/-- Nothing is read from a line that is no text on. -/
theorem textLines_cut {ls : List (List UInt8)} (h : ∀ l ∈ ls, IsText l) {bad : List UInt8}
    (hbad : ¬ IsText bad) (ms : List (List UInt8)) : textLines (ls ++ bad :: ms) = textLines ls := by
  have hnone : String.fromUTF8? ⟨bad.toArray⟩ = none := Option.not_isSome_iff_eq_none.1 hbad
  rw [textLines_append h, textLines, hnone, List.append_nil]

theorem length_textLines_eq_iff {ls : List (List UInt8)} :
    (textLines ls).length = ls.length ↔ ∀ l ∈ ls, IsText l := by
  induction ls with
  | nil => simp [textLines]
  | cons l ls ih =>
    cases htext : String.fromUTF8? ⟨l.toArray⟩ with
    | none => simp [textLines, htext, IsText]
    | some text => simp [textLines, htext, IsText, ih]

/-- The first of some lines that is no text. -/
theorem exists_first_bad {ls : List (List UInt8)} (h : ¬ ∀ l ∈ ls, IsText l) :
    ∃ good bad rest, ls = good ++ bad :: rest ∧ (∀ l ∈ good, IsText l) ∧ ¬ IsText bad := by
  induction ls with
  | nil => exact absurd (by simp) h
  | cons l ls ih =>
    by_cases hl : IsText l
    · obtain ⟨good, bad, rest, rfl, hgood, hbad⟩ := ih fun hall => h (List.forall_mem_cons.2 ⟨hl, hall⟩)
      exact ⟨l :: good, bad, rest, rfl, List.forall_mem_cons.2 ⟨hl, hgood⟩, hbad⟩
    · exact ⟨[], l, ls, rfl, by simp, hl⟩

/-! ### What a file tells by itself -/

/-- A line that is neither blank nor an event. -/
def isMalformed (text : String) : Bool :=
  !(Text.trim text).isEmpty && (StreamEvent.ofText? (Text.trim text)).isNone

/-- How many lines of a file are neither blank nor events. -/
def malformedIn (bytes : List UInt8) : Nat := (textLines (linesOf bytes)).countP isMalformed

/-- The stream that an event belongs to. -/
def StreamEvent.streamId (e : StreamEvent) : String := e.stream.getD defaultStream

/-- The streams that the events of a file belong to. -/
def streamsIn (bytes : List UInt8) : Finset String := ((eventsIn bytes).map StreamEvent.streamId).toFinset

section Append

variable {before : List UInt8} (ended : EndsLine before) (texts : ∀ l ∈ linesOf before, IsText l)
  (after : List UInt8)

include ended texts

theorem textLines_linesOf_append : textLines (linesOf (before ++ after)) =
    textLines (linesOf before) ++ textLines (linesOf after) := by
  rw [linesOf_append ended, textLines_append texts]

theorem eventsIn_append : eventsIn (before ++ after) = eventsIn before ++ eventsIn after := by
  rw [eventsIn, textLines_linesOf_append ended texts, List.filterMap_append, ← eventsIn, ← eventsIn]

theorem malformedIn_append : malformedIn (before ++ after) = malformedIn before + malformedIn after := by
  rw [malformedIn, textLines_linesOf_append ended texts, List.countP_append, ← malformedIn, ← malformedIn]

theorem streamsIn_append : streamsIn (before ++ after) = streamsIn before ∪ streamsIn after := by
  rw [streamsIn, eventsIn_append ended texts, List.map_append, List.toFinset_append, ← streamsIn,
    ← streamsIn]

end Append

/-! ### What a run counts -/

variable {σ : Type}

namespace Run

/-- What a run has counted after some lines, and the streams it has seen, each once. -/
structure Counted (run : Run σ) (texts : List String) : Prop where
  events : run.events = (texts.filterMap eventOf?).length
  malformed : run.malformed = texts.countP isMalformed
  distinct : run.streams.Nodup
  streams : run.streams.toFinset = ((texts.filterMap eventOf?).map StreamEvent.streamId).toFinset

theorem Counted.line {run : Run σ} {texts : List String} (h : run.Counted texts) (accept : Sink σ)
    (now : UInt64) (text : String) : (run.line accept now text).Counted (texts ++ [text]) := by
  obtain ⟨hevents, hmalformed, hdistinct, hstreams⟩ := h
  unfold Run.line
  simp only
  split
  · next hblank =>
    have hno : eventOf? text = none := if_pos hblank
    have hfine : isMalformed text = false := by simp [isMalformed, hblank]
    exact ⟨by simp [hno, hevents], by simp [hfine, hmalformed], hdistinct, by simp [hno, hstreams]⟩
  · next hblank =>
    cases he : StreamEvent.ofText? (Text.trim text) with
    | some e =>
      have hyes : eventOf? text = some e := by simp [eventOf?, hblank, he]
      have hfine : isMalformed text = false := by simp [isMalformed, he]
      refine ⟨by simp [event, hyes, hevents], by simp [event, hfine, hmalformed], ?_, ?_⟩
      · simp only [event]
        split
        · exact hdistinct
        · next hnew => exact List.nodup_append.2 ⟨hdistinct, by simp, by grind⟩
      · simp only [event]
        split
        · next hold =>
          have hmem : e.streamId ∈ run.streams.toFinset := List.mem_toFinset.2 hold
          rw [hstreams] at hmem
          have hinsert := Finset.insert_eq_of_mem hmem
          simpa [hyes, hstreams] using hinsert.symm
        · simp [hyes, hstreams, StreamEvent.streamId]
    | none =>
      have hno : eventOf? text = none := by simp [eventOf?, he]
      have hbad : isMalformed text = true := by simp [isMalformed, hblank, he]
      exact ⟨by simp [hno, hevents], by simp [hbad, hmalformed], hdistinct, by simp [hno, hstreams]⟩

theorem Counted.lines {run : Run σ} {texts : List String} (h : run.Counted texts) (accept : Sink σ)
    (now : UInt64) (ls : List (List UInt8)) :
    (run.lines accept now ls).1.Counted (texts ++ textLines ls) := by
  induction ls generalizing run texts with
  | nil => simpa [Run.lines, textLines] using h
  | cons l ls ih =>
    cases htext : String.fromUTF8? ⟨l.toArray⟩ with
    | none => simpa [Run.lines, textLines, htext] using h
    | some text => simpa [Run.lines, textLines, htext] using ih (h.line accept now text)

end Run

namespace Tally

/-- What a file and the rest of it come to together, when their events belong to so many streams. -/
def plus (t u : Tally) (streams : Nat) : Tally where
  events := t.events + u.events
  streams := streams
  cases := t.cases + u.cases
  stepsWritten := t.stepsWritten + u.stepsWritten
  stepsDropped := t.stepsDropped + u.stepsDropped
  malformedLines := t.malformedLines + u.malformedLines

end Tally

/-- The tally of a file that takes a recorder from one state to another. -/
def tallyOf (r next : Recorder σ) (bytes : List UInt8) : Tally where
  events := (eventsIn bytes).length
  streams := (streamsIn bytes).card
  cases := next.ledger.cases - r.ledger.cases
  stepsWritten := next.written - r.written
  stepsDropped := next.dropped - r.dropped
  malformedLines := malformedIn bytes

/-- The recorder carries out what the events of a file ask for; there is a tally if all lines are texts. -/
theorem ingest_eq (accept : Sink σ) (now : UInt64) (r : Recorder σ) (bytes : List UInt8) :
    let next := r.run accept (actsAt now (eventsIn bytes))
    ingest accept now r bytes =
      (next, if ∀ l ∈ linesOf bytes, IsText l then some (tallyOf r next bytes) else none) := by
  intro next
  obtain ⟨hrun, hall⟩ := Run.recorder_lines accept now { recorder := r } (linesOf bytes)
  rw [length_textLines_eq_iff] at hall
  have hstart : Run.Counted { recorder := r } [] := ⟨rfl, rfl, List.nodup_nil, rfl⟩
  obtain ⟨hevents, hmalformed, hdistinct, hstreams⟩ := hstart.lines accept now (linesOf bytes)
  rw [List.nil_append] at hevents hmalformed hstreams
  have htally : (Run.lines accept now { recorder := r } (linesOf bytes)).1.tally r =
      tallyOf r next bytes := by
    have hcard := List.toFinset_card_of_nodup hdistinct
    rw [hstreams] at hcard
    simp only [Run.tally, tallyOf, hrun, hevents, hmalformed, ← hcard]
    rfl
  simp only [ingest, htally, hrun]
  refine Prod.ext rfl (if_congr hall rfl rfl)

theorem isSome_ingest (accept : Sink σ) (now : UInt64) (r : Recorder σ) (bytes : List UInt8) :
    (ingest accept now r bytes).2.isSome ↔ ∀ l ∈ linesOf bytes, IsText l := by
  simp [ingest_eq]

/-! ### Readings of the clock -/

/-- One step, offered when the clock shows one time or another; a step with a time of its own keeps it. -/
def Offer.Retimed (now later : UInt64) (o o' : Offer) : Prop :=
  o' = o ∨ o.step.ts = now ∧ o' = { o with step := { o.step with ts := later } }

/-- A ledger does not look at the clock, and offers the same step. -/
theorem Ledger.apply_retimed (options : Options) (now later : UInt64) (l : Ledger) (id : String)
    (op : Operation) :
    (l.apply options later id op).1 = (l.apply options now id op).1 ∧
      Option.Rel (Offer.Retimed now later) (l.apply options now id op).2
        (l.apply options later id op).2 := by
  cases op with
  | record call =>
    have hstep (key : CaseKey) (n : Nat) :
        Offer.Retimed now later ⟨key, stepOf options now key n call⟩
          ⟨key, stepOf options later key n call⟩ := by
      cases hts : call.ts with
      | some t => exact .inl (by simp [stepOf, hts])
      | none => exact .inr (by simp [stepOf, hts])
    simp only [apply, record]
    split <;> exact ⟨rfl, .some (hstep _ _)⟩
  | _ => exact ⟨rfl, .none⟩

/-- Sinks that are alike keep the same steps, whatever the clock shows, and stay alike. -/
def Sink.Timeless (accept : Sink σ) (Like : σ → σ → Prop) (now later : UInt64) : Prop :=
  ∀ s s' o o', Like s s' → o.Retimed now later o' →
    Like (accept s o).1 (accept s' o').1 ∧ (accept s' o').2 = (accept s o).2

/-- A step without the time at which it was seen. -/
def Offer.untimed (o : Offer) : Offer := { o with step := { o.step with ts := 0 } }

/-- Lists of the same steps, but for their times. -/
def Sink.SameList (s s' : Nat × List Offer) : Prop :=
  s'.1 = s.1 ∧ s'.2.map Offer.untimed = s.2.map Offer.untimed

theorem Sink.timeless_list (refused : List Nat) (now later : UInt64) :
    (Sink.list refused).Timeless Sink.SameList now later := by
  rintro ⟨n, taken⟩ ⟨n', taken'⟩ o o' ⟨hn, htaken⟩ ho
  obtain rfl : n' = n := hn
  have huntimed : o'.untimed = o.untimed := by
    rcases ho with rfl | ⟨-, rfl⟩ <;> rfl
  simp only [Sink.list]
  split
  · exact ⟨⟨rfl, htaken⟩, rfl⟩
  · exact ⟨⟨rfl, by simpa [huntimed] using htaken⟩, rfl⟩

namespace Recorder

/-- Recorders in the same state, with sinks that are alike. -/
structure Alike (Like : σ → σ → Prop) (r r' : Recorder σ) : Prop where
  options : r'.options = r.options
  ledger : r'.ledger = r.ledger
  written : r'.written = r.written
  dropped : r'.dropped = r.dropped
  sink : Like r.sink r'.sink

namespace Alike

variable {Like : σ → σ → Prop} {r r' : Recorder σ} {accept : Sink σ} {now later : UInt64}

theorem offer (h : r.Alike Like r') (timeless : accept.Timeless Like now later) {o o' : Offer}
    (ho : o.Retimed now later o') : (r.offer accept o).Alike Like (r'.offer accept o') := by
  obtain ⟨hsink, hkept⟩ := timeless _ _ _ _ h.sink ho
  simp only [Recorder.offer, hkept]
  split
  · exact ⟨h.options, h.ledger, congrArg (· + 1) h.written, h.dropped, hsink⟩
  · exact ⟨h.options, h.ledger, h.written, congrArg (· + 1) h.dropped, hsink⟩

theorem apply (h : r.Alike Like r') (timeless : accept.Timeless Like now later) (id : String)
    (op : Operation) : (r.apply accept now id op).Alike Like (r'.apply accept later id op) := by
  obtain ⟨hledger, hoffered⟩ := Ledger.apply_retimed r.options now later r.ledger id op
  have hsame : r'.ledger.apply r'.options later id op = r.ledger.apply r.options later id op := by
    rw [h.options, h.ledger]
  simp only [Recorder.apply, hsame]
  generalize r.ledger.apply r.options now id op = next at hledger hoffered
  generalize r.ledger.apply r.options later id op = next' at hledger hoffered
  obtain ⟨ledger, offered⟩ := next
  obtain ⟨ledger', offered'⟩ := next'
  obtain rfl : ledger' = ledger := hledger
  have hnext : Alike Like { r with ledger := ledger' } { r' with ledger := ledger' } :=
    ⟨h.options, rfl, h.written, h.dropped, h.sink⟩
  cases hoffered with
  | none => exact hnext
  | some ho => exact hnext.offer timeless ho

/-- Recorders that carry out the same events stay alike. -/
theorem run (h : r.Alike Like r') (timeless : accept.Timeless Like now later) (es : List StreamEvent) :
    (r.run accept (actsAt now es)).Alike Like (r'.run accept (actsAt later es)) := by
  induction es generalizing r r' with
  | nil => exact h
  | cons e es ih => exact ih (h.apply timeless _ _)

/-- A file of events leaves recorders alike, with the same tally. -/
theorem ingest (h : r.Alike Like r') (timeless : accept.Timeless Like now later) (bytes : List UInt8) :
    (ingest accept now r bytes).1.Alike Like (Recording.ingest accept later r' bytes).1 ∧
      (Recording.ingest accept later r' bytes).2 = (Recording.ingest accept now r bytes).2 := by
  have hnext := h.run timeless (eventsIn bytes)
  rw [ingest_eq, ingest_eq]
  refine ⟨hnext, ?_⟩
  simp only [tallyOf, hnext.ledger, hnext.written, hnext.dropped, h.ledger, h.written, h.dropped]

end Alike

/-! ### One file after the other -/

/-- Counts only grow. -/
theorem counts_le_run (accept : Sink σ) (r : Recorder σ) (h : List Act) :
    r.ledger.cases ≤ (r.run accept h).ledger.cases ∧ r.written ≤ (r.run accept h).written ∧
      r.dropped ≤ (r.run accept h).dropped := by
  induction h using List.reverseRecOn with
  | nil => exact ⟨Nat.le_refl _, Nat.le_refl _, Nat.le_refl _⟩
  | append_singleton h a ih =>
    obtain ⟨hcases, hwritten, hdropped⟩ := ih
    obtain ⟨hw, hd⟩ := step_counts accept (r.run accept h) a
    rw [run_concat, (step_ledger ..).2, Ledger.cases_apply, hw, hd]
    omega

end Recorder

section Append

variable (accept : Sink σ) (now : UInt64) (r : Recorder σ) {before : List UInt8}

/-- The rest of a file finds a recorder where the first part left it, and the tallies add up. -/
theorem ingest_append_of_texts (ended : EndsLine before) (texts : ∀ l ∈ linesOf before, IsText l)
    (after : List UInt8) :
    let first := (ingest accept now r before).1
    let next := ingest accept now first after
    ingest accept now r (before ++ after) =
      (next.1, next.2.map fun u =>
        (tallyOf r first before).plus u (streamsIn before ∪ streamsIn after).card) := by
  intro first next
  have hfirst : first = r.run accept (actsAt now (eventsIn before)) := by
    simp only [first, ingest_eq]
  have hnext : next.1 = first.run accept (actsAt now (eventsIn after)) := by
    simp only [next, ingest_eq]
  have hacts : actsAt now (eventsIn (before ++ after)) =
      actsAt now (eventsIn before) ++ actsAt now (eventsIn after) := by
    rw [eventsIn_append ended texts, actsAt, List.map_append, ← actsAt, ← actsAt]
  have hwhole : r.run accept (actsAt now (eventsIn (before ++ after))) = next.1 := by
    rw [hnext, hfirst, hacts, Recorder.run, Recorder.run, Recorder.run, List.foldl_append]
  obtain ⟨hcases, hwritten, hdropped⟩ := Recorder.counts_le_run accept r (actsAt now (eventsIn before))
  obtain ⟨hcases', hwritten', hdropped'⟩ :=
    Recorder.counts_le_run accept first (actsAt now (eventsIn after))
  rw [← hfirst] at hcases hwritten hdropped
  rw [← hnext] at hcases' hwritten' hdropped'
  have hadd : tallyOf r next.1 (before ++ after) =
      (tallyOf r first before).plus (tallyOf first next.1 after)
        (streamsIn before ∪ streamsIn after).card := by
    simp only [tallyOf, Tally.plus, eventsIn_append ended texts, malformedIn_append ended texts,
      streamsIn_append ended texts, List.length_append, Tally.mk.injEq, true_and, and_true]
    omega
  have hall : (∀ l ∈ linesOf (before ++ after), IsText l) ↔ ∀ l ∈ linesOf after, IsText l := by
    simp only [linesOf_append ended, List.forall_mem_append]
    exact and_iff_right texts
  have hlast : next.2 =
      if ∀ l ∈ linesOf after, IsText l then some (tallyOf first next.1 after) else none := by
    rw [hnext]
    simp only [next, ingest_eq]
  rw [ingest_eq]
  refine Prod.ext hwhole ?_
  simp only [hwhole, hall, hlast, hadd]
  split <;> rfl

/-- A line that is no text hides everything from itself on. -/
theorem ingest_of_not_text {bytes : List UInt8} (bad : ¬ ∀ l ∈ linesOf bytes, IsText l) :
    ∃ before line after, bytes = before ++ line ++ after ∧ EndsLine before ∧ 0x0A ∉ line ∧
      (after = [] ∨ after.head? = some 0x0A) ∧ (∀ l ∈ linesOf before, IsText l) ∧ ¬ IsText line ∧
      ingest accept now r bytes = ((ingest accept now r before).1, none) := by
  obtain ⟨good, line, rest, hlines, hgood, hline⟩ := exists_first_bad bad
  obtain ⟨before, after, hbytes, hends, hbefore, hfeed, hafter⟩ := exists_before_line hlines
  have hevents : eventsIn bytes = eventsIn before := by
    rw [eventsIn, hlines, textLines_cut hgood hline, ← hbefore, ← eventsIn]
  refine ⟨before, line, after, hbytes, hends, hfeed, hafter, hbefore ▸ hgood, hline, ?_⟩
  rw [ingest_eq, ingest_eq, hevents, if_neg bad]

end Append

/-- A file may be cut after any line feed. The second part finds the recorder as the first one left it, so
that the recorder, its sink and the outcome are those of the whole, and the counts are the sums, but for a
stream of both parts, which is one stream. The clock may show other times while the parts are taken: then
sinks that it does not matter to are left alike. And a line that is no text, and nothing else, ends a run
with an error, with the recorder as the lines before the first such line leave it. -/
theorem ingest_append (accept : Sink σ) (r : Recorder σ) :
    (∀ (now : UInt64) (t₁ t₂ : List UInt8) (t : Tally), EndsLine t₁ →
      (ingest accept now r t₁).2 = some t →
      let next := ingest accept now (ingest accept now r t₁).1 t₂
      let whole := ingest accept now r (t₁ ++ t₂)
      whole.1 = next.1 ∧
        whole.2 = (next.2.map fun u => t.plus u (streamsIn t₁ ∪ streamsIn t₂).card) ∧
        t.streams = (streamsIn t₁).card ∧ ∀ u ∈ next.2, u.streams = (streamsIn t₂).card) ∧
    (∀ (now now₁ now₂ : UInt64) (t₁ t₂ : List UInt8) (t : Tally) (Like : σ → σ → Prop), EndsLine t₁ →
      (ingest accept now₁ r t₁).2 = some t → accept.Timeless Like now now₁ →
      accept.Timeless Like now now₂ → Like r.sink r.sink →
      let next := ingest accept now₂ (ingest accept now₁ r t₁).1 t₂
      let whole := ingest accept now r (t₁ ++ t₂)
      whole.1.Alike Like next.1 ∧
        whole.2 = next.2.map fun u => t.plus u (streamsIn t₁ ∪ streamsIn t₂).card) ∧
    ∀ (now : UInt64) (bytes : List UInt8),
      ((ingest accept now r bytes).2 = none ↔ ∃ l ∈ linesOf bytes, ¬ IsText l) ∧
      ((∃ l ∈ linesOf bytes, ¬ IsText l) → ∃ before line after, bytes = before ++ line ++ after ∧
        EndsLine before ∧ 0x0A ∉ line ∧ (after = [] ∨ after.head? = some 0x0A) ∧
        (∀ l ∈ linesOf before, IsText l) ∧ ¬ IsText line ∧
        (ingest accept now r before).2.isSome ∧
        (ingest accept now r bytes).1 = (ingest accept now r before).1) := by
  have htally (now : UInt64) {r : Recorder σ} {bytes : List UInt8} {t : Tally}
      (ht : (ingest accept now r bytes).2 = some t) :
      (∀ l ∈ linesOf bytes, IsText l) ∧ t = tallyOf r (ingest accept now r bytes).1 bytes := by
    rw [ingest_eq] at ht ⊢
    simpa [eq_comm] using ht
  have hbad (bytes : List UInt8) :
      (∃ l ∈ linesOf bytes, ¬ IsText l) ↔ ¬ ∀ l ∈ linesOf bytes, IsText l := by simp
  refine ⟨fun now t₁ t₂ t ended taken => ?_, fun now now₁ now₂ t₁ t₂ t Like ended taken h₁ h₂ self => ?_,
    fun now bytes => ⟨?_, fun hnot => ?_⟩⟩
  · obtain ⟨texts, rfl⟩ := htally now taken
    have happend := ingest_append_of_texts accept now r ended texts t₂
    refine ⟨(Prod.ext_iff.1 happend).1, (Prod.ext_iff.1 happend).2, rfl, fun u hu => ?_⟩
    rw [(htally now hu).2]
    rfl
  · have hstart : r.Alike Like r := ⟨rfl, rfl, rfl, rfl, self⟩
    obtain ⟨hfirst, hout₁⟩ := hstart.ingest h₁ t₁
    obtain ⟨hnext, hout₂⟩ := hfirst.ingest h₂ t₂
    rw [hout₁] at taken
    obtain ⟨texts, rfl⟩ := htally now taken
    simp only [ingest_append_of_texts accept now r ended texts t₂, hout₂]
    exact ⟨hnext, trivial⟩
  · rw [hbad, ← isSome_ingest accept now r, Option.not_isSome_iff_eq_none]
  · obtain ⟨before, line, after, hbytes, hends, hfeed, hafter, htexts, hline, hcut⟩ :=
      ingest_of_not_text accept now r ((hbad bytes).1 hnot)
    exact ⟨before, line, after, hbytes, hends, hfeed, hafter, htexts, hline,
      (isSome_ingest accept now r before).2 htexts, (Prod.ext_iff.1 hcut).1⟩

/-- A step, an empty line, and a line that is no event. -/
def someLines : List UInt8 :=
  bytesOf "\x7b\"kind\":\"record\",\"line\":1,\"column\":0,\"vars\":\x7b\x7d\x7d\r\n\n?\n"

/-- Events of the same stream and of another one, the last one on a line that is not ended. -/
def moreLines : List UInt8 :=
  bytesOf "\x7b\"kind\":\"reset\"\x7d\n\x7b\"stream\":\"w\",\"kind\":\"suite_exit\"\x7d"

theorem ingest_append_lines :
    let accept := Sink.list [2]
    let r := (Recorder.fresh {} (0, [])).run accept [⟨1, "", .startCase "t" none⟩]
    let next := ingest accept 7 (ingest accept 6 r someLines).1 moreLines
    let whole := ingest accept 5 r (someLines ++ moreLines)
    EndsLine someLines ∧ (ingest accept 6 r someLines).2 = some ⟨1, 1, 0, 1, 0, 1⟩ ∧
      next.2 = some ⟨2, 2, 0, 0, 0, 0⟩ ∧ whole.2 = some ⟨3, 2, 0, 1, 0, 1⟩ ∧
      whole.1.Alike Sink.SameList next.1 ∧
      whole.1 = (ingest accept 5 (ingest accept 5 r someLines).1 moreLines).1 ∧
      (ingest accept 5 r (someLines ++ 0xFF :: moreLines)).2 = none := by
  intro accept r next whole
  have ended : EndsLine someLines := by decide +kernel
  have taken : (ingest accept 5 r someLines).2 = some ⟨1, 1, 0, 1, 0, 1⟩ := by decide +kernel
  have takenLater : (ingest accept 6 r someLines).2 = some ⟨1, 1, 0, 1, 0, 1⟩ := by decide +kernel
  have hnext : next.2 = some ⟨2, 2, 0, 0, 0, 0⟩ := by decide +kernel
  have hstreams : (streamsIn someLines ∪ streamsIn moreLines).card = 2 := by decide +kernel
  have hbad : ∃ l ∈ linesOf (someLines ++ 0xFF :: moreLines), ¬ IsText l := by decide +kernel
  obtain ⟨happend, haside, hcut⟩ := ingest_append accept r
  obtain ⟨halike, htally⟩ := haside 5 6 7 someLines moreLines _ Sink.SameList ended takenLater
    (Sink.timeless_list [2] 5 6) (Sink.timeless_list [2] 5 7) ⟨rfl, rfl⟩
  refine ⟨ended, takenLater, hnext, ?_, halike, (happend 5 someLines moreLines _ ended taken).1,
    (hcut 5 _).1.2 hbad⟩
  rw [htally, hnext, hstreams]
  rfl

end StepTrace.Recording
