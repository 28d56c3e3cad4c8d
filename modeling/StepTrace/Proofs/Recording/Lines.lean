import StepTrace.Proofs.Recording.Isolation

/-!
A file of events is a history. Whatever its lines are, the recorder carries out the acts that the events in
it ask for, not more than the file has lines, and the tally counts what became of them.
-/
namespace StepTrace.Recording

theorem length_linesFrom (line bytes : List UInt8) :
    (linesFrom line bytes).length ≤ bytes.length + if line.isEmpty then 0 else 1 := by
  induction bytes generalizing line with
  | nil => cases line <;> simp [linesFrom]
  | cons b bytes ih =>
    have hempty := ih []
    have hmore := ih (b :: line)
    rw [linesFrom]
    split
    · simp only [List.isEmpty_nil, if_true, List.length_cons] at hempty ⊢
      omega
    · simp only [List.isEmpty_cons, Bool.false_eq_true, if_false, List.length_cons] at hmore ⊢
      omega

/-- A file has at most as many lines as bytes. -/
theorem length_linesOf (bytes : List UInt8) : (linesOf bytes).length ≤ bytes.length := by
  simpa [linesOf] using length_linesFrom [] bytes

/-! ### The events of a file -/

/-- The event that a line tells, if it tells one. -/
def eventOf? (text : String) : Option StreamEvent :=
  let trimmed := Text.trim text
  if trimmed.isEmpty then none else StreamEvent.ofText? trimmed

/-- The lines before the first one that is no text. -/
def textLines : List (List UInt8) → List String
  | [] => []
  | l :: r =>
    match String.fromUTF8? ⟨l.toArray⟩ with
    | some text => text :: textLines r
    | none => []

/-- The events of a file, up to the first line that is no text. -/
def eventsIn (bytes : List UInt8) : List StreamEvent := (textLines (linesOf bytes)).filterMap eventOf?

/-- What events ask for, all at one reading of the clock. -/
def actsAt (now : UInt64) (es : List StreamEvent) : List Act :=
  es.map fun e => StreamEvent.act (now, e)

theorem length_textLines (ls : List (List UInt8)) : (textLines ls).length ≤ ls.length := by
  induction ls with
  | nil => exact Nat.le_refl 0
  | cons l ls ih =>
    rw [textLines]
    split
    · exact Nat.succ_le_succ ih
    · exact Nat.zero_le _

/-- A file has at most as many events as bytes. -/
theorem length_eventsIn (bytes : List UInt8) : (eventsIn bytes).length ≤ bytes.length :=
  calc
    (eventsIn bytes).length ≤ (textLines (linesOf bytes)).length := List.length_filterMap_le ..
    _ ≤ (linesOf bytes).length := length_textLines _
    _ ≤ bytes.length := length_linesOf bytes

variable {σ : Type}

namespace Run

/-- A line asks for the act of its event, if it tells one. -/
theorem recorder_line (accept : Sink σ) (now : UInt64) (run : Run σ) (text : String) :
    (run.line accept now text).recorder =
      run.recorder.run accept (actsAt now (eventOf? text).toList) := by
  unfold line eventOf?
  simp only
  split
  · rfl
  · split
    · next e he => rw [he]; rfl
    · next he => rw [he]; rfl

/-- Lines ask for the acts of their events, and all of them are taken if each is a text. -/
theorem recorder_lines (accept : Sink σ) (now : UInt64) (run : Run σ) (ls : List (List UInt8)) :
    (run.lines accept now ls).1.recorder =
        run.recorder.run accept (actsAt now ((textLines ls).filterMap eventOf?)) ∧
      ((run.lines accept now ls).2 ↔ (textLines ls).length = ls.length) := by
  induction ls generalizing run with
  | nil => exact ⟨rfl, by simp [lines, textLines]⟩
  | cons l ls ih =>
    cases htext : String.fromUTF8? ⟨l.toArray⟩ with
    | none => simp [lines, textLines, htext, actsAt]
    | some text =>
      obtain ⟨hrun, hall⟩ := ih (run.line accept now text)
      simp only [lines, textLines, htext, List.length_cons, Nat.add_right_cancel_iff]
      refine ⟨?_, hall⟩
      rw [hrun, recorder_line, Recorder.run, Recorder.run, Recorder.run, ← List.foldl_append, actsAt,
        actsAt, actsAt, ← List.map_append]
      cases he : eventOf? text <;> simp [he]

/-- Two runs have counted the same. -/
def CountsAlike {τ : Type} (run : Run σ) (run' : Run τ) : Prop :=
  run'.events = run.events ∧ run'.malformed = run.malformed ∧ run'.streams = run.streams

/-- What a line counts as does not depend on the recorder. -/
theorem CountsAlike.line {τ : Type} {run : Run σ} {run' : Run τ} (h : CountsAlike run run')
    (accept : Sink σ) (accept' : Sink τ) (now later : UInt64) (text : String) :
    CountsAlike (run.line accept now text) (run'.line accept' later text) := by
  obtain ⟨hevents, hmalformed, hstreams⟩ := h
  unfold Run.line
  simp only
  split
  · exact ⟨hevents, hmalformed, hstreams⟩
  · split
    · simp [CountsAlike, event, hevents, hmalformed, hstreams]
    · simp [CountsAlike, hevents, hmalformed, hstreams]

/-- Which lines are events, which are none, and which streams they name, does not depend on the recorder. -/
theorem CountsAlike.lines {τ : Type} {run : Run σ} {run' : Run τ} (h : CountsAlike run run')
    (accept : Sink σ) (accept' : Sink τ) (now later : UInt64) (ls : List (List UInt8)) :
    (run'.lines accept' later ls).2 = (run.lines accept now ls).2 ∧
      CountsAlike (run.lines accept now ls).1 (run'.lines accept' later ls).1 := by
  induction ls generalizing run run' with
  | nil => exact ⟨rfl, h⟩
  | cons l ls ih =>
    simp only [Run.lines]
    split
    · next text _ => exact ih (h.line accept accept' now later text)
    · exact ⟨rfl, h⟩

end Run

/-- A file of events is taken to its end if all its lines are texts; and the recorder has carried out what
the events before that ask for. -/
theorem ingest_fst (accept : Sink σ) (now : UInt64) (r : Recorder σ) (bytes : List UInt8) :
    (ingest accept now r bytes).1 = r.run accept (actsAt now (eventsIn bytes)) ∧
      ((ingest accept now r bytes).2.isSome ↔
        (textLines (linesOf bytes)).length = (linesOf bytes).length) := by
  obtain ⟨hrun, hall⟩ := Run.recorder_lines accept now { recorder := r } (linesOf bytes)
  refine ⟨hrun, ?_⟩
  rw [← hall]
  simp [ingest]

/-- Two recorders that take the same file get the same tally, but for what each of them counts itself. -/
theorem ingest_snd {τ : Type} (accept : Sink σ) (accept' : Sink τ) (now later : UInt64) (r : Recorder σ)
    (r' : Recorder τ) (bytes : List UInt8) :
    let next := ingest accept now r bytes
    let next' := ingest accept' later r' bytes
    next'.2 = next.2.map fun t =>
      { t with
        cases := next'.1.ledger.cases - r'.ledger.cases
        stepsWritten := next'.1.written - r'.written
        stepsDropped := next'.1.dropped - r'.dropped } := by
  have hstart : Run.CountsAlike { recorder := r } { recorder := r' } := ⟨rfl, rfl, rfl⟩
  obtain ⟨hend, hevents, hmalformed, hstreams⟩ :=
    hstart.lines accept accept' now later (linesOf bytes)
  simp only [ingest, hend]
  split
  · simp [Run.tally, hevents, hmalformed, hstreams]
  · rfl

/-- What becomes of a file of events is what becomes of some acts, not more than the file has bytes. -/
theorem ingest_eq_run (accept : Sink σ) (now : UInt64) (r : Recorder σ) (bytes : List UInt8) :
    ∃ h : List Act, h.length ≤ bytes.length ∧ (ingest accept now r bytes).1 = r.run accept h ∧
      ∀ t ∈ (ingest accept now r bytes).2,
        t.stepsWritten = (r.run accept h).written - r.written ∧
          t.stepsDropped = (r.run accept h).dropped - r.dropped := by
  have hrun := (ingest_fst accept now r bytes).1
  refine ⟨actsAt now (eventsIn bytes), ?_, hrun, fun t ht => ?_⟩
  · rw [actsAt, List.length_map]
    exact length_eventsIn bytes
  · rw [← hrun]
    simp only [ingest, Option.mem_def, Option.ite_none_right_eq_some] at ht ⊢
    obtain ⟨-, ht⟩ := ht
    cases ht
    exact ⟨rfl, rfl⟩

end StepTrace.Recording
