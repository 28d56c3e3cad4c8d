import StepTrace.Proofs.Recording.Decoded
import StepTrace.Proofs.Recording.Wire

/-!
A recorder that is driven directly, and one that is driven by a file of events. Every operation can be sent
as an event; its bindings come back as they are kept, so a file of such events leaves the recorder in the
same state, and the sink is offered the same steps.
-/
namespace StepTrace.Recording

/-- The marker of a failed read. -/
def CaptureFault.marker : CaptureFault → Json
  | unavailable detail => .object [(markerKey, .text "unavailable"), ("reason", .text detail)]
  | unserializable detail => .object [(markerKey, .text "unserializable"), ("reason", .text detail)]

namespace Bindings

/-- What a read is sent as: the value, or the marker of the failure. -/
def sentAs : Except CaptureFault Json → Json
  | .ok v => v
  | .error f => f.marker

/-- Bindings as an event holds them. -/
def sent (b : Bindings) : Members := b.names.map fun name => (name, sentAs (b.read name))

/-- A value can be sent if it holds no marker, is readable, and is not nested too deep inside an event and
its bindings. -/
structure IsSendable (v : Json) : Prop where
  free : Marker.IsFree v
  readable : v.IsReadable
  depth : v.depth + 2 ≤ Json.depthLimit

theorem get?_sent {b : Bindings} {name : String} (h : name ∈ b.names) :
    b.sent.get? name = some (sentAs (b.read name)) := by
  rw [sent]
  generalize b.names = names at h
  induction names with
  | nil => cases h
  | cons n names ih =>
    by_cases hn : n = name
    · subst hn
      exact if_pos rfl
    · exact (if_neg hn).trans (ih (List.mem_of_ne_of_mem (Ne.symm hn) h))

/-- What was kept of a name is kept again. -/
theorem kept_ofSent {b : Bindings} {name : String} (hname : name ∈ b.names)
    (h : ∀ v, b.read name = .ok v → IsSendable v) : (ofSent b.sent).kept name = b.kept name := by
  rw [kept_of_get? (get?_sent hname), kept]
  cases hread : b.read name with
  | ok v => exact Marker.decode_of_isFree (h v hread).free
  | error f => cases f <;> rfl

theorem captureFrom_congr {b b' : Bindings} {names : List String}
    (h : ∀ name ∈ names, b'.kept name = b.kept name) (maxVars : Option Nat) (vars : Members) :
    b'.captureFrom maxVars vars names = b.captureFrom maxVars vars names := by
  induction names generalizing vars with
  | nil => rfl
  | cons name names ih =>
    obtain ⟨hname, hnames⟩ := List.forall_mem_cons.1 h
    rw [captureFrom, captureFrom, ih hnames, ih hnames, hname]

theorem capture_ofSent {b : Bindings}
    (h : ∀ name ∈ b.names, ∀ v, b.read name = .ok v → IsSendable v) (maxVars : Option Nat) :
    (ofSent b.sent).capture maxVars = b.capture maxVars := by
  have hnames : (ofSent b.sent).names = b.names := by
    simp [ofSent, sent, Keyed.keys, Function.comp_def]
  rw [capture, capture, hnames]
  exact captureFrom_congr (fun name hname => kept_ofSent hname (h name hname)) maxVars []

/-- Bindings whose values can be sent are readable where they are sent, and leave room for the event around
them. -/
theorem isReadable_sent {b : Bindings} (distinct : b.names.Nodup)
    (h : ∀ name ∈ b.names, ∀ v, b.read name = .ok v → IsSendable v) :
    (Json.object b.sent).IsReadable ∧ (Json.object b.sent).depth < Json.depthLimit := by
  have hvalue : ∀ name ∈ b.names, (sentAs (b.read name)).IsReadable ∧
      (sentAs (b.read name)).depth + 2 ≤ Json.depthLimit := by
    intro name hname
    cases hread : b.read name with
    | ok v => exact ⟨(h name hname v hread).readable, (h name hname v hread).depth⟩
    | error f =>
      cases f <;> simp [sentAs, CaptureFault.marker, Json.IsReadable, Json.MembersReadable, Keyed.Distinct,
        Keyed.keys, Json.depth, Json.memberDepth, Json.depthLimit, markerKey]
  have hkeys : Keyed.Distinct b.sent := by
    simpa [Keyed.Distinct, Keyed.keys, sent, Function.comp_def] using distinct
  have hmembers : Json.MembersReadable b.sent :=
    Json.membersReadable_iff.2 (by simpa [sent] using fun name hname => (hvalue name hname).1)
  have hdepth : Json.memberDepth b.sent ≤ Json.depthLimit - 2 := by
    refine Json.memberDepth_le_iff.2 fun m hm => ?_
    obtain ⟨name, hname, rfl⟩ := List.mem_map.1 hm
    exact Nat.le_sub_of_add_le (hvalue name hname).2
  have hlimit : Json.depthLimit = 127 := rfl
  refine ⟨⟨hkeys, hmembers⟩, ?_⟩
  rw [Json.depth]
  omega

end Bindings

/-! ### Operations as events -/

/-- A record can be sent if it says its time, and its bindings have distinct names and values that can be
sent. -/
structure Call.IsSendable (c : Call) : Prop where
  timed : c.ts.isSome
  distinct : c.bindings.names.Nodup
  values : ∀ name ∈ c.bindings.names, ∀ v, c.bindings.read name = .ok v → Bindings.IsSendable v

namespace Operation

def IsSendable : Operation → Prop
  | record c => c.IsSendable
  | _ => True

/-- The event of an operation. -/
def event : Operation → Event
  | enterSuite name => .suiteEnter name
  | exitSuite => .suiteExit
  | startCase name path => .caseStart name path
  | endCase => .caseEnd
  | reset => .reset
  | record c => .record ⟨c.line, c.column, c.bindings.sent, c.returnPosition, c.file, c.ts⟩

/-- The event of an operation does to a ledger what the operation does, whatever the clock shows. -/
theorem apply_event {op : Operation} (h : op.IsSendable) (options : Options) (now later : UInt64)
    (l : Ledger) (id : String) :
    l.apply options later id op.event.operation = l.apply options now id op := by
  cases op with
  | record c =>
    obtain ⟨t, ht⟩ := Option.isSome_iff_exists.1 h.timed
    have hstep (case : CaseKey) (n : Nat) : Ledger.stepOf options later case n
        ⟨c.line, c.column, .ofSent c.bindings.sent, c.returnPosition, c.file, c.ts⟩ =
          Ledger.stepOf options now case n c := by
      rw [Ledger.stepOf, Ledger.stepOf, Bindings.capture_ofSent h.values, ht]
      rfl
    simp only [event, Event.operation, Ledger.apply, Ledger.record, hstep]
  | _ => rfl

end Operation

/-- An act as the event of its stream. -/
def Act.sent (a : Act) : StreamEvent := ⟨some a.stream, a.op.event⟩

theorem Act.isReadable_sent {a : Act} (h : a.op.IsSendable) :
    a.sent.toJson.IsReadable ∧ a.sent.toJson.depth ≤ Json.depthLimit := by
  have hvars : ∀ s, a.sent.event = .record s →
      (Json.object s.vars).IsReadable ∧ (Json.object s.vars).depth < Json.depthLimit := by
    intro s hs
    rw [Act.sent] at hs
    cases hop : a.op with
    | record c =>
      rw [hop] at h hs
      cases hs
      exact Bindings.isReadable_sent h.distinct h.values
    | _ =>
      rw [hop] at hs
      cases hs
  exact ⟨StreamEvent.isReadable_toJson fun s hs => (hvars s hs).1,
    StreamEvent.depth_toJson fun s hs => (hvars s hs).2⟩

/-! ### Two ways to drive a recorder -/

/-- A sink that keeps a list of what it is offered. -/
def Sink.logged {σ : Type} (accept : Sink σ) : Sink (σ × List Offer) := fun (s, log) o =>
  (((accept s o).1, log ++ [o]), (accept s o).2)

namespace Recorder

variable {σ : Type}

/-- A recorder with such a list beside its sink. -/
def withLog (r : Recorder σ) (log : List Offer) : Recorder (σ × List Offer) where
  options := r.options
  ledger := r.ledger
  written := r.written
  dropped := r.dropped
  sink := (r.sink, log)

/-- The list gets the steps that are offered, and nothing else is different. -/
theorem run_withLog (accept : Sink σ) (r : Recorder σ) (log : List Offer) (h : List Act) :
    (r.withLog log).run accept.logged h =
      (r.run accept h).withLog (log ++ (r.offerings accept h).map Offering.offer) := by
  induction h generalizing r log with
  | nil => simp [offerings]
  | cons a h ih =>
    have hstep : (r.withLog log).step accept.logged a =
        (r.step accept a).withLog (log ++ (r.offering? a).toList.map Offering.offer) := by
      simp only [step, apply, withLog, offering?]
      cases hoffer : (r.ledger.apply r.options a.now a.stream a.op).2 with
      | none => simp
      | some o =>
        cases hk : (accept r.sink o).2 <;> simp [offer, Sink.logged, hk]
    rw [offerings, List.map_append, ← List.append_assoc]
    exact (congrArg (run accept.logged · h) hstep).trans (ih _ _)

/-- The events of acts do to a recorder what the acts do. -/
theorem run_sent (accept : Sink σ) (r : Recorder σ) (now : UInt64) {acts : List Act}
    (h : ∀ a ∈ acts, a.op.IsSendable) :
    r.run accept (actsAt now (acts.map Act.sent)) = r.run accept acts := by
  induction acts generalizing r with
  | nil => rfl
  | cons a acts ih =>
    obtain ⟨ha, hacts⟩ := List.forall_mem_cons.1 h
    have hstep : r.step accept (StreamEvent.act (now, a.sent)) = r.step accept a := by
      have happly := Operation.apply_event ha r.options a.now now r.ledger a.stream
      simp only [step, apply, StreamEvent.act, Act.sent, Option.getD_some, happly]
    exact (congrArg (run accept · (actsAt now (acts.map Act.sent))) hstep).trans (ih _ hacts)

end Recorder

/-- Acts that are sent as events, one to a line, leave a recorder in the state in which they leave it when
they are carried out directly. The file is taken to its end, and the sink is offered the same steps. -/
theorem ingest_written {σ : Type} (accept : Sink σ) (now : UInt64) (r : Recorder σ) (acts : List Act)
    (h : ∀ a ∈ acts, a.op.IsSendable) :
    let file := written (acts.map Act.sent)
    (ingest accept now r file).1 = r.run accept acts ∧ (ingest accept now r file).2.isSome ∧
      (ingest accept.logged now (r.withLog []) file).1.sink.2 =
        (r.offerings accept acts).map Offering.offer := by
  intro file
  obtain ⟨hevents, hall⟩ := eventsIn_written (acts.map Act.sent)
    (List.forall_mem_map.2 fun a ha => (Act.isReadable_sent (h a ha)).1)
    (List.forall_mem_map.2 fun a ha => (Act.isReadable_sent (h a ha)).2)
  have hrun {τ : Type} (accept : Sink τ) (r : Recorder τ) :
      (ingest accept now r file).1 = r.run accept acts := by
    rw [(ingest_fst accept now r file).1, hevents, Recorder.run_sent accept r now h]
  refine ⟨hrun accept r, (ingest_fst accept now r file).2.2 hall, ?_⟩
  rw [hrun, Recorder.run_withLog]
  rfl

/-- Two streams, names with a line feed and a quotation mark, values in values, and a read that failed. -/
def mixedActs : List Act :=
  [ ⟨1, "a", .enterSuite "two\n\"lines\""⟩
  , ⟨2, "b", .startCase "t" (some ["s"])⟩
  , ⟨3, "a", .record
      { line := 1, column := 2, returnPosition := true, file := some "f.js", ts := some 9
        bindings := .ofReads
          [ ("x", .ok (.object [("\\", .array [.int (-1), .null, .text "\x07"])]))
          , ("y", .error (.unavailable "not yet")) ] }⟩
  , ⟨4, "b", .record
      { line := 3, column := 4, returnPosition := false, file := none, ts := some 10
        bindings := .ofReads [] }⟩ ]

theorem ingest_written_mixed :
    let r := Recorder.fresh {} (0, [])
    (∀ a ∈ mixedActs, a.op.IsSendable) ∧
      (ingest (Sink.list [1]) 5 r (written (mixedActs.map Act.sent))).1 =
        r.run (Sink.list [1]) mixedActs ∧
      (ingest (Sink.list [1]) 5 r (written (mixedActs.map Act.sent))).2.isSome ∧
      (ingest (Sink.list [1]).logged 5 (r.withLog []) (written (mixedActs.map Act.sent))).1.sink.2 =
        (r.offerings (Sink.list [1]) mixedActs).map Offering.offer ∧
      (r.run (Sink.list [1]) mixedActs).written = 1 ∧ (r.run (Sink.list [1]) mixedActs).dropped = 1 := by
  intro r
  have hvalue : Bindings.IsSendable
      (.object [("\\", .array [.int (-1), .null, .text "\x07"])]) := by
    refine ⟨?_, ?_, ?_⟩
    · simp [Marker.IsFree, Marker.AreFree, Marker.MembersFree, Marker.tagOf?, Keyed.get?, markerKey]
    · simp [Json.IsReadable, Json.AreReadable, Json.MembersReadable, Keyed.Distinct, Keyed.keys]
    · simp [Json.depth, Json.depthOf, Json.memberDepth, Json.depthLimit]
  have hsendable : ∀ a ∈ mixedActs, a.op.IsSendable := by
    refine List.forall_mem_cons.2 ⟨trivial, List.forall_mem_cons.2 ⟨trivial,
      List.forall_mem_cons.2 ⟨⟨rfl, by decide, ?_⟩, List.forall_mem_cons.2 ⟨⟨rfl, by decide, ?_⟩, ?_⟩⟩⟩⟩
    · intro name hname v hread
      simp only [Bindings.ofReads, List.map_cons, List.map_nil, List.mem_cons, List.not_mem_nil,
        or_false] at hname
      obtain rfl | rfl := hname
      · cases hread
        exact hvalue
      · cases hread
    · exact fun name hname => absurd hname List.not_mem_nil
    · exact fun a ha => absurd ha List.not_mem_nil
  obtain ⟨hrun, hend, hlog⟩ := ingest_written (Sink.list [1]) 5 r mixedActs hsendable
  exact ⟨hsendable, hrun, hend, hlog, by decide +kernel, by decide +kernel⟩

end StepTrace.Recording
