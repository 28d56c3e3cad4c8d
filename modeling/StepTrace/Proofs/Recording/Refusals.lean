import Mathlib.Data.List.Forall2
import StepTrace.Proofs.Recording.Activation
import StepTrace.Proofs.Recording.Isolation

/-!
Sinks that refuse steps. A recorder counts what its sink answers and does not learn anything else of it: with any
other sink it offers the same steps under the same numbers. A number that was given to a step is spent, also if the
step was refused.
-/
namespace StepTrace.Recording

variable {σ τ : Type}

/-! ### Sinks that are watched -/

/-- A sink with a list of the steps that it was offered and of its answers. -/
def Sink.watched (accept : Sink σ) : Sink (σ × List (Offer × Bool)) := fun (s, calls) o =>
  let (s, kept) := accept s o
  ((s, calls ++ [(o, kept)]), kept)

namespace Recorder

/-- The same recorder with another sink. -/
def withSink (r : Recorder σ) (sink : τ) : Recorder τ where
  options := r.options
  ledger := r.ledger
  written := r.written
  dropped := r.dropped
  sink := sink

/-- A recorder with such a list beside its sink. -/
def watch (r : Recorder σ) (calls : List (Offer × Bool)) : Recorder (σ × List (Offer × Bool)) :=
  r.withSink (r.sink, calls)

/-- The step that a recorder offers at an act, with the answer of its sink. -/
def call? (accept : Sink σ) (r : Recorder σ) (a : Act) : Option (Offer × Bool) :=
  (r.ledger.apply r.options a.now a.stream a.op).2.map fun o => (o, (accept r.sink o).2)

/-- The steps that a recorder offers, act by act, with the answers of its sink. -/
def calls (accept : Sink σ) (r : Recorder σ) : List Act → List (Offer × Bool)
  | [] => []
  | a :: rest => (r.call? accept a).toList ++ (r.step accept a).calls accept rest

theorem step_watched (accept : Sink σ) (r : Recorder σ) (calls : List (Offer × Bool)) (a : Act) :
    (r.watch calls).step accept.watched a =
      (r.step accept a).watch (calls ++ (r.call? accept a).toList) := by
  simp only [step, apply, watch, withSink, call?]
  cases (r.ledger.apply r.options a.now a.stream a.op).2 with
  | none => simp
  | some o => cases hk : (accept r.sink o).2 <;> simp [offer, Sink.watched, hk]

/-- Under watch a recorder does what it does anyway, and the list gets what is offered and answered. -/
theorem run_watched (accept : Sink σ) (r : Recorder σ) (calls : List (Offer × Bool)) (h : List Act) :
    (r.watch calls).run accept.watched h = (r.run accept h).watch (calls ++ r.calls accept h) := by
  induction h generalizing r calls with
  | nil => simp [Recorder.calls]
  | cons a h ih =>
    have hstep := step_watched accept r calls a
    rw [Recorder.calls, ← List.append_assoc]
    exact (congrArg (run accept.watched · h) hstep).trans (ih _ _)

theorem sink_run_watched (accept : Sink σ) (r : Recorder σ) (h : List Act) :
    ((r.watch []).run accept.watched h).sink.2 = r.calls accept h := by
  rw [run_watched, List.nil_append]
  rfl

/-- What is offered does not hang on the answers. -/
theorem calls_fst (accept : Sink σ) (r : Recorder σ) (h : List Act) :
    (r.calls accept h).map Prod.fst = (r.offerings accept h).map Offering.offer := by
  induction h generalizing r with
  | nil => rfl
  | cons a h ih =>
    rw [calls, offerings, List.map_append, List.map_append, ih, call?, offering?]
    cases (r.ledger.apply r.options a.now a.stream a.op).2 <;> rfl

/-- A step is offered for each record. -/
theorem length_calls (accept : Sink σ) (r : Recorder σ) (h : List Act) :
    (r.calls accept h).length = h.countP fun a => a.op.isRecord := by
  induction h generalizing r with
  | nil => rfl
  | cons a h ih =>
    rw [calls, List.length_append, ih, List.countP_cons, call?, Ledger.offered_apply]
    cases a.op <;> simp [Operation.isRecord, Nat.add_comm]

/-- A recorder counts the answers of its sink. -/
theorem counts_run (accept : Sink σ) (r : Recorder σ) (h : List Act) :
    (r.run accept h).written = r.written + (r.calls accept h).countP Prod.snd ∧
      (r.run accept h).written + (r.run accept h).dropped =
        r.written + r.dropped + (r.calls accept h).length := by
  induction h generalizing r with
  | nil => exact ⟨rfl, rfl⟩
  | cons a h ih =>
    obtain ⟨hwritten, hboth⟩ := ih (r.step accept a)
    obtain ⟨hw, hd⟩ := step_counts accept r a
    change ((r.step accept a).run accept h).written = _ ∧ ((r.step accept a).run accept h).written +
      ((r.step accept a).run accept h).dropped = _
    rw [hboth, hwritten, hw, hd, calls, call?, List.countP_append, List.length_append]
    cases (r.ledger.apply r.options a.now a.stream a.op).2 with
    | none => simp
    | some o => cases hk : (accept r.sink o).2 <;> simp [hk] <;> omega

/-- A recorder counts the cases that are started. -/
theorem cases_add_run (accept : Sink σ) (r : Recorder σ) (h : List Act) :
    (r.run accept h).ledger.cases = r.ledger.cases + h.countP fun a => a.op.startsCase := by
  induction h using List.reverseRecOn with
  | nil => rfl
  | append_singleton h a ih =>
    rw [run_concat, (step_ledger ..).2, Ledger.cases_apply, ih, List.countP_append,
      List.countP_singleton, Nat.add_assoc]

end Recorder

/-! ### Recorders with different sinks -/

/-- One operation of one stream, at two readings of the clock. -/
def Act.Again (a a' : Act) : Prop := a'.stream = a.stream ∧ a'.op = a.op

/-- An operation that does not need the clock does the same whatever it shows. -/
theorem Ledger.apply_of_timed {op : Operation} (h : op.isTimed) (options : Options) (now later : UInt64)
    (l : Ledger) (id : String) : l.apply options later id op = l.apply options now id op := by
  cases op with
  | record call =>
    obtain ⟨t, ht⟩ := Option.isSome_iff_exists.1 h
    have hstep (key : CaseKey) (n : Nat) : stepOf options later key n call = stepOf options now key n call := by
      simp [stepOf, ht]
    simp only [apply, record, hstep]
  | _ => rfl

namespace Recorder

/-- Two recorders that have offered the same, each to its own sink. -/
structure Matches (r : Recorder σ) (r' : Recorder τ) : Prop where
  options : r'.options = r.options
  ledger : r'.ledger = r.ledger
  offered : r'.written + r'.dropped = r.written + r.dropped

namespace Matches

variable {r : Recorder σ} {r' : Recorder τ} {a a' : Act}

theorem applied (h : r.Matches r') (same : a.Again a') (timed : a.op.isTimed) :
    r'.ledger.apply r'.options a'.now a'.stream a'.op = r.ledger.apply r.options a.now a.stream a.op := by
  rw [h.options, h.ledger, same.1, same.2]
  exact Ledger.apply_of_timed timed ..

theorem offering?_eq (h : r.Matches r') (same : a.Again a') (timed : a.op.isTimed) :
    r'.offering? a' = r.offering? a := by
  rw [offering?, offering?, h.applied same timed, h.ledger, same.1]

/-- An act keeps recorders together, whatever their sinks answer. -/
theorem step (h : r.Matches r') (accept : Sink σ) (accept' : Sink τ) (same : a.Again a') (timed : a.op.isTimed) :
    (r.step accept a).Matches (r'.step accept' a') := by
  obtain ⟨hoptions, hledger⟩ := step_ledger accept r a
  obtain ⟨hoptions', hledger'⟩ := step_ledger accept' r' a'
  obtain ⟨hw, hd⟩ := step_counts accept r a
  obtain ⟨hw', hd'⟩ := step_counts accept' r' a'
  have happlied := h.applied same timed
  have hoffered := h.offered
  refine ⟨?_, ?_, ?_⟩
  · rw [hoptions', h.options, hoptions]
  · rw [hledger', happlied, hledger]
  · rw [hw', hd', hw, hd, happlied]
    cases (r.ledger.apply r.options a.now a.stream a.op).2 with
    | none => simpa using hoffered
    | some o => cases hk : (accept r.sink o).2 <;> cases hk' : (accept' r'.sink o).2 <;> simp [hk, hk'] <;> omega

/-- So do the acts of a history, and the offerings are the same. -/
theorem run (h : r.Matches r') (accept : Sink σ) (accept' : Sink τ) {acts acts' : List Act}
    (same : List.Forall₂ Act.Again acts acts') (timed : ∀ a ∈ acts, a.op.isTimed) :
    (r.run accept acts).Matches (r'.run accept' acts') ∧
      r'.offerings accept' acts' = r.offerings accept acts := by
  induction same generalizing r r' with
  | nil => exact ⟨h, rfl⟩
  | cons ha _ ih =>
    obtain ⟨htimed, hrest⟩ := List.forall_mem_cons.1 timed
    obtain ⟨hrun, hofferings⟩ := ih (h.step accept accept' ha htimed) hrest
    refine ⟨hrun, ?_⟩
    rw [offerings, offerings, h.offering?_eq ha htimed, hofferings]

end Matches

/-! ### Numbers are spent -/

/-- As long as a stream neither turns to another case nor numbers anew, its counter does not go down. -/
theorem counter_le_run (accept : Sink σ) (r : Recorder σ) {id : String} {h : List Act} (hu : Uninterrupted id h)
    (active : (r.ledger.stream id).active.isSome) :
    ((r.run accept h).ledger.stream id).active = (r.ledger.stream id).active ∧
      (r.ledger.stream id).counter ≤ ((r.run accept h).ledger.stream id).counter := by
  induction h using List.reverseRecOn with
  | nil => exact ⟨rfl, Nat.le_refl _⟩
  | append_singleton h a ih =>
    obtain ⟨hactive, hcounter⟩ := ih fun b hb => hu b (List.mem_append_left _ hb)
    have ha := hu a (by simp)
    rw [run_concat, (step_ledger ..).2, Ledger.stream_apply]
    split
    · next hs =>
      obtain ⟨hturns, hrestarts⟩ := ha hs
      subst hs
      cases hop : a.op <;> simp_all [StreamState.after, Operation.turnsCase, Operation.restarts]
      omega
    · exact ⟨hactive, hcounter⟩

theorem idleCount_le_run (accept : Sink σ) (r : Recorder σ) (path : List String) (h : List Act) :
    r.ledger.idleCount path ≤ (r.run accept h).ledger.idleCount path := by
  induction h using List.reverseRecOn with
  | nil => exact Nat.le_refl _
  | append_singleton h a ih =>
    rw [run_concat, (step_ledger ..).2, Ledger.idleCount_apply]
    omega

/-- What is offered at an act: the case is the current one of the stream, and the number comes after the last one
that was given there. -/
theorem eq_of_offering? {r : Recorder σ} {a : Act} {x : Offering} (h : r.offering? a = some x) :
    let s := r.ledger.stream a.stream
    a.op.isRecord ∧ x.stream = a.stream ∧ x.inCase = s.active.isSome ∧
      x.offer.case = s.currentCase r.options ∧
      x.offer.step.stepNumber =
        (if s.active.isSome then s.counter else r.ledger.idleCount (s.currentCase r.options).suitePath) + 1 := by
  rw [offering?, Ledger.offered_apply] at h
  cases hop : a.op with
  | record call =>
    simp only [hop, Option.map_some, Option.some.injEq] at h
    subst h
    refine ⟨rfl, rfl, rfl, rfl, ?_⟩
    simp only [Ledger.stepOf]
    split <;> rfl
  | _ => simp [hop] at h

end Recorder

/-- Two offerings with acts between them belong to one activation of a case, or both to no case and to the same
suite path. -/
def Offering.Follows (x : Offering) (between : List Act) (y : Offering) : Prop :=
  x.inCase ∧ y.stream = x.stream ∧ Uninterrupted x.stream between ∨
    x.inCase = false ∧ y.inCase = false ∧ y.offer.case.suitePath = x.offer.case.suitePath

namespace Recorder

variable {r : Recorder σ} {a b : Act} {between : List Act} {x y : Offering}

/-- In an activation the counter is at least at the number that was given last. -/
theorem number_le_counter (accept : Sink σ) (hx : r.offering? a = some x) (hin : x.inCase)
    (hu : Uninterrupted a.stream between) :
    let s := (r.run accept (a :: between)).ledger.stream a.stream
    s.active.isSome ∧ x.offer.step.stepNumber ≤ s.counter := by
  obtain ⟨hrecord, -, hactive, -, hnumber⟩ := eq_of_offering? hx
  rw [hin] at hactive
  rw [if_pos hactive.symm] at hnumber
  have hnext : (r.step accept a).ledger.stream a.stream =
      { r.ledger.stream a.stream with counter := (r.ledger.stream a.stream).counter + 1 } := by
    rw [(step_ledger ..).2, Ledger.stream_apply, if_pos rfl]
    cases hop : a.op with
    | record call => simp [StreamState.after, ← hactive]
    | _ => simp [hop, Operation.isRecord] at hrecord
  obtain ⟨hsame, hle⟩ := counter_le_run accept (r.step accept a) hu (by rw [hnext]; exact hactive.symm)
  rw [hnext] at hsame hle
  intro s
  refine ⟨?_, hnumber ▸ hle⟩
  exact (congrArg Option.isSome hsame).trans hactive.symm

/-- Outside all cases as many steps were counted for the suite path as the number that was given last. -/
theorem number_le_idleCount (accept : Sink σ) (between : List Act) (hx : r.offering? a = some x)
    (hout : x.inCase = false) :
    x.offer.step.stepNumber ≤
      (r.run accept (a :: between)).ledger.idleCount x.offer.case.suitePath := by
  obtain ⟨hrecord, -, hactive, hcase, hnumber⟩ := eq_of_offering? hx
  rw [hout] at hactive
  rw [← hactive, ← hcase] at hnumber
  have hnone : (r.ledger.stream a.stream).active = none := by simpa using hactive.symm
  have hnext : (r.step accept a).ledger.idleCount x.offer.case.suitePath = x.offer.step.stepNumber := by
    rw [(step_ledger ..).2, Ledger.idleCount_apply, ← hcase, if_pos ⟨hrecord, hnone, rfl⟩, hnumber]
    rfl
  rw [← hnext]
  exact idleCount_le_run accept (r.step accept a) _ between

/-- Of two offerings in one activation, or under one suite path outside all cases, the later one has the larger
number, also if the sink refused the other. -/
theorem number_lt_of_follows (accept : Sink σ) (hx : r.offering? a = some x)
    (hy : (r.run accept (a :: between)).offering? b = some y) (h : x.Follows between y) :
    x.offer.step.stepNumber < y.offer.step.stepNumber := by
  obtain ⟨-, hxs, -⟩ := eq_of_offering? hx
  obtain ⟨-, hys, hyc, hyk, hyn⟩ := eq_of_offering? hy
  rcases h with ⟨hin, hsame, hu⟩ | ⟨hout, hout', hpath⟩
  · obtain ⟨hactive, hle⟩ := number_le_counter accept hx hin (hxs ▸ hu)
    have hs : b.stream = a.stream := by rw [← hys, hsame, hxs]
    rw [hs, if_pos hactive] at hyn
    omega
  · have hle := number_le_idleCount accept between hx hout
    rw [hout'] at hyc
    rw [← hyc, ← hyk, hpath] at hyn
    simp only [Bool.false_eq_true, if_false] at hyn
    omega

end Recorder

/-- What a sink answers disturbs nothing. Two recorders that differ in their sinks alone are given the same
operations, each at its own readings of the clock; every record says its time. Then both sinks are offered the same
steps under the same cases, and after every operation all streams and all counts of steps outside all cases are the
same, and as many steps are written or dropped. A number is not given a second time in an activation, or under a
suite path outside all cases, whether the step was taken or refused. -/
theorem offered_to_sinks (accept : Sink σ) (accept' : Sink τ) (r : Recorder σ) (sink' : τ) (acts acts' : List Act)
    (same : List.Forall₂ Act.Again acts acts') (timed : ∀ a ∈ acts, a.op.isTimed) :
    let r' := r.withSink sink'
    let calls := ((r.watch []).run accept.watched acts).sink.2
    let calls' := ((r'.watch []).run accept'.watched acts').sink.2
    calls'.map Prod.fst = calls.map Prod.fst ∧
      (∀ n,
        let s := r.run accept (acts.take n)
        let s' := r'.run accept' (acts'.take n)
        s'.ledger = s.ledger ∧ s'.written + s'.dropped = s.written + s.dropped) ∧
      ∀ past a between b rest, acts = past ++ a :: (between ++ b :: rest) →
        ∀ x ∈ (r.run accept past).offering? a, ∀ y ∈ (r.run accept (past ++ a :: between)).offering? b,
          x.Follows between y → x.offer.step.stepNumber < y.offer.step.stepNumber := by
  intro r' calls calls'
  have hstart : r.Matches r' := ⟨rfl, rfl, rfl⟩
  refine ⟨?_, fun n => ?_, fun past a between b rest hacts x hx y hy hfollows => ?_⟩
  · simp only [calls, calls', Recorder.sink_run_watched, Recorder.calls_fst]
    rw [(hstart.run accept accept' same timed).2]
  · have htimed : ∀ a ∈ acts.take n, a.op.isTimed := fun a ha => timed a (List.mem_of_mem_take ha)
    have hmatches := (hstart.run accept accept' (List.forall₂_take n same) htimed).1
    exact ⟨hmatches.ledger, hmatches.offered⟩
  · have hrun : r.run accept (past ++ a :: between) = (r.run accept past).run accept (a :: between) :=
      List.foldl_append
    rw [hrun] at hy
    exact Recorder.number_lt_of_follows accept hx hy hfollows

/-- A case of one stream and steps of two streams outside all cases, at some time. -/
def refusedActs (now : UInt64) : List Act :=
  let record : Operation :=
    .record { line := 1, column := 0, bindings := .ofReads [], returnPosition := false, file := none, ts := some 7 }
  [ ⟨now, "", .startCase "t" none⟩, ⟨now, "", record⟩, ⟨now, "w", record⟩, ⟨now, "", record⟩
  , ⟨now, "", .endCase⟩, ⟨now, "", record⟩ ]

theorem offered_to_refusing_sink :
    let r := Recorder.fresh {} (0, [])
    let calls := ((r.watch []).run (Sink.list [1, 2]).watched (refusedActs 3)).sink.2
    let calls' := (((r.withSink (0, [])).watch []).run (Sink.list []).watched (refusedActs 9)).sink.2
    List.Forall₂ Act.Again (refusedActs 3) (refusedActs 9) ∧ (∀ a ∈ refusedActs 3, a.op.isTimed) ∧
      calls.map Prod.snd = [false, false, true, true] ∧ calls'.map Prod.snd = [true, true, true, true] ∧
      calls'.map Prod.fst = calls.map Prod.fst ∧
      calls.map (fun c => c.1.step.stepNumber) = [1, 1, 2, 2] := by
  intro r calls calls'
  have same : List.Forall₂ Act.Again (refusedActs 3) (refusedActs 9) :=
    .cons ⟨rfl, rfl⟩ (.cons ⟨rfl, rfl⟩ (.cons ⟨rfl, rfl⟩ (.cons ⟨rfl, rfl⟩ (.cons ⟨rfl, rfl⟩
      (.cons ⟨rfl, rfl⟩ .nil)))))
  have timed : ∀ a ∈ refusedActs 3, a.op.isTimed := by decide
  obtain ⟨hoffered, -⟩ := offered_to_sinks (Sink.list [1, 2]) (Sink.list []) r (0, []) (refusedActs 3)
    (refusedActs 9) same timed
  exact ⟨same, timed, by decide +kernel, by decide +kernel, hoffered, by decide +kernel⟩

end StepTrace.Recording
