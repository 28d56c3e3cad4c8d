import StepTrace.Proofs.Recording.History
import StepTrace.Recording.Ingest

/-!
Streams do not disturb each other. However the events of several streams are mixed, each stream offers
the same steps; only the numbers of its steps outside all cases depend on the mixture, and not which
numbers are given to a suite path.
-/
namespace StepTrace.Recording

/-- A step that is offered, with the stream that it comes from and whether that stream had an active
case. -/
structure Offering where
  stream : String
  inCase : Bool
  offer : Offer

namespace Recorder

variable {σ : Type}

/-- What a recorder offers its sink at an act. -/
def offering? (r : Recorder σ) (a : Act) : Option Offering :=
  (r.ledger.apply r.options a.now a.stream a.op).2.map fun o =>
    ⟨a.stream, (r.ledger.stream a.stream).active.isSome, o⟩

/-- What a recorder offers its sink, act by act. -/
def offerings (accept : Sink σ) (r : Recorder σ) : List Act → List Offering
  | [] => []
  | a :: rest => (r.offering? a).toList ++ (r.step accept a).offerings accept rest

/-- The sink receives the offerings and nothing else. -/
theorem sink_run_offerings (accept : Sink σ) (r : Recorder σ) (h : List Act) :
    (r.run accept h).sink =
      (r.offerings accept h).foldl (fun s x => (accept s x.offer).1) r.sink := by
  induction h generalizing r with
  | nil => rfl
  | cons a h ih =>
    have hs : (r.step accept a).sink =
        (r.offering? a).toList.foldl (fun s x => (accept s x.offer).1) r.sink := by
      rw [step_sink, offering?]
      cases (r.ledger.apply r.options a.now a.stream a.op).2 <;> rfl
    rw [offerings, List.foldl_append, ← hs]
    exact ih (r.step accept a)

theorem offerings_append (accept : Sink σ) (r : Recorder σ) (h k : List Act) :
    r.offerings accept (h ++ k) = r.offerings accept h ++ (r.run accept h).offerings accept k := by
  induction h generalizing r with
  | nil => rfl
  | cons a h ih => simp [offerings, ih, run]

end Recorder

/-- The steps of a stream that belong to its cases. -/
def inCaseOf (id : String) (xs : List Offering) : List Offer :=
  xs.filterMap fun x => if x.stream = id ∧ x.inCase then some x.offer else none

/-- The steps of a stream outside all cases, all with the number zero. -/
def unnumberedOf (id : String) (xs : List Offering) : List Offer :=
  xs.filterMap fun x =>
    if x.stream = id ∧ !x.inCase then
      some { x.offer with step := { x.offer.step with stepNumber := 0 } }
    else none

/-- The numbers that steps outside all cases were given under a suite path, in order. -/
def idleNumbers (path : List String) (xs : List Offering) : List Nat :=
  xs.filterMap fun x =>
    if !x.inCase ∧ x.offer.case.suitePath = path then some x.offer.step.stepNumber else none

/-! ### Situations -/

/-- An operation with what its stream had done before it. -/
structure Situation where
  stream : String
  before : List Operation
  op : Operation

/-- The situations of a history, one for each act. -/
def situations (h : List Act) : List Situation :=
  eachFrom (fun past a => ⟨a.stream, pastOf past a.stream, a.op⟩) [] h

/-- The situations of one stream, from its operations alone. -/
def situationsOf (id : String) (ops : List Operation) : List Situation :=
  eachFrom (fun before op => ⟨id, before, op⟩) [] ops

namespace Operation

def startsCase : Operation → Bool
  | startCase .. => true
  | _ => false

/-- A step says itself when it was seen. -/
def isTimed : Operation → Bool
  | record call => call.ts.isSome
  | _ => true

end Operation

namespace Situation

/-- The step that is offered in a situation under a number. -/
def offer? (options : Options) (c : Situation) (number : Nat) : Option Offer :=
  match c.op with
  | .record call =>
    let key := keyAfter options c.before
    some ⟨key, Ledger.stepOf options 0 key number call⟩
  | _ => none

def inCaseOffer? (options : Options) (c : Situation) : Option Offer :=
  if (caseAfter? c.before).isSome then c.offer? options (recordsSinceStart c.before + 1) else none

def unnumberedOffer? (options : Options) (c : Situation) : Option Offer :=
  if (caseAfter? c.before).isSome then none else c.offer? options 0

end Situation

theorem situations_concat (h : List Act) (a : Act) :
    situations (h ++ [a]) = situations h ++ [⟨a.stream, pastOf h a.stream, a.op⟩] := by
  simp [situations]

/-- What one stream lives through depends on what it does alone. -/
theorem filter_situations (h : List Act) (id : String) :
    (situations h).filter (fun c => c.stream = id) = situationsOf id (pastOf h id) := by
  induction h using List.reverseRecOn with
  | nil => rfl
  | append_singleton h a ih =>
    rw [situations_concat, List.filter_append, ih, pastOf_concat]
    by_cases ha : a.stream = id
    · simp [situationsOf, ha]
    · simp [ha]

theorem perm_of_filter_eq {α κ : Type} [DecidableEq κ] (key : α → κ) {l m : List α}
    (h : ∀ k, l.filter (fun a => key a = k) = m.filter (fun a => key a = k)) : l.Perm m := by
  classical
  refine List.perm_iff_count.2 fun a => ?_
  calc
    l.count a = (l.filter fun b => key b = key a).count a := (List.count_filter (by simp)).symm
    _ = (m.filter fun b => key b = key a).count a := by rw [h]
    _ = m.count a := List.count_filter (by simp)

/-- Two mixtures of the same streams hold the same situations. -/
theorem situations_perm {h k : List Act} (same : ∀ id, pastOf h id = pastOf k id) :
    (situations h).Perm (situations k) := by
  apply perm_of_filter_eq Situation.stream
  intro id
  rw [filter_situations, filter_situations, same]

/-! ### What is offered, from the situations -/

/-- The offering of an act after a history. -/
def offeringAfter (options : Options) (h : List Act) (a : Act) : Option Offering :=
  (offerAfter options h a).map fun o => ⟨a.stream, (caseAfter? (pastOf h a.stream)).isSome, o⟩

namespace Recorder

variable {σ : Type}

theorem offerings_concat (accept : Sink σ) (options : Options) (sink : σ) (h : List Act) (a : Act) :
    (fresh options sink).offerings accept (h ++ [a]) =
      (fresh options sink).offerings accept h ++ (offeringAfter options h a).toList := by
  obtain ⟨-, hl⟩ := run_reflects accept options sink h
  have ho := offered_run accept options sink h a
  rw [offerings_append]
  congr 1
  simp only [offerings, List.append_nil, offering?, ho, (hl.stream a.stream).active_isSome,
    offeringAfter]

theorem map_offerings (accept : Sink σ) (options : Options) (sink : σ) (h : List Act) :
    ((fresh options sink).offerings accept h).map Offering.offer = offersOf options h := by
  induction h using List.reverseRecOn with
  | nil => rfl
  | append_singleton h a ih =>
    rw [offerings_concat, List.map_append, ih, offersOf_concat, offeringAfter]
    cases offerAfter options h a <;> rfl

end Recorder

theorem offerAfter_of_timed {options : Options} {h : List Act} {a : Act} (ha : a.op.isTimed) :
    offerAfter options h a =
      Situation.offer? options ⟨a.stream, pastOf h a.stream, a.op⟩
        (numberAfter options h a.stream) := by
  unfold offerAfter Situation.offer?
  cases hop : a.op with
  | record call =>
    simp only [hop, Operation.isTimed] at ha
    obtain ⟨t, ht⟩ := Option.isSome_iff_exists.1 ha
    simp [Ledger.stepOf, ht]
  | _ => rfl

section Fresh

variable {σ : Type} (accept : Sink σ) (options : Options) (sink : σ)

/-- What is told of each offering can be told of the situations, if it can be told of one. -/
theorem filterMap_offerings {β : Type} (f : Offering → Option β) (g : Situation → Option β)
    (hfg : ∀ h a, a.op.isTimed →
      (offeringAfter options h a).bind f = g ⟨a.stream, pastOf h a.stream, a.op⟩)
    (h : List Act) (timed : ∀ a ∈ h, a.op.isTimed) :
    ((Recorder.fresh options sink).offerings accept h).filterMap f =
      (situations h).filterMap g := by
  induction h using List.reverseRecOn with
  | nil => rfl
  | append_singleton h a ih =>
    have ha := hfg h a (timed a (by simp))
    have hh := ih fun b hb => timed b (by simp [hb])
    rw [Recorder.offerings_concat, situations_concat, List.filterMap_append, hh,
      List.filterMap_append]
    congr 1
    rw [List.filterMap_cons, ← ha]
    cases ho : offeringAfter options h a with
    | none => rfl
    | some x => cases hx : f x <;> simp [hx]

/-- The steps of the cases of a stream depend on what the stream does alone. -/
theorem inCaseOf_offerings (id : String) (h : List Act) (timed : ∀ a ∈ h, a.op.isTimed) :
    inCaseOf id ((Recorder.fresh options sink).offerings accept h) =
      (situationsOf id (pastOf h id)).filterMap (Situation.inCaseOffer? options) := by
  rw [← filter_situations, List.filterMap_filter]
  apply filterMap_offerings accept options sink _ _ _ h timed
  intro h a ha
  simp only [offeringAfter, offerAfter_of_timed ha, Option.bind_map, Function.comp_def]
  by_cases hs : a.stream = id
  · subst hs
    by_cases hc : (caseAfter? (pastOf h a.stream)).isSome <;>
      simp [hc, Situation.inCaseOffer?, numberAfter]
  · simp [hs]

/-- So do its steps outside all cases, their numbers apart. -/
theorem unnumberedOf_offerings (id : String) (h : List Act) (timed : ∀ a ∈ h, a.op.isTimed) :
    unnumberedOf id ((Recorder.fresh options sink).offerings accept h) =
      (situationsOf id (pastOf h id)).filterMap (Situation.unnumberedOffer? options) := by
  rw [← filter_situations, List.filterMap_filter]
  apply filterMap_offerings accept options sink _ _ _ h timed
  intro h a ha
  simp only [offeringAfter, offerAfter_of_timed ha, Option.bind_map, Function.comp_def]
  by_cases hs : a.stream = id
  · subst hs
    by_cases hc : (caseAfter? (pastOf h a.stream)).isSome
    · simp [hc, Situation.unnumberedOffer?]
    · simp only [hc, Situation.unnumberedOffer?, Situation.offer?]
      cases a.op <;> simp [Ledger.stepOf]
  · simp [hs]

/-- Under every suite path the steps outside all cases are numbered from one on, whatever streams they
come from. -/
theorem idleNumbers_offerings (path : List String) (h : List Act) :
    idleNumbers path ((Recorder.fresh options sink).offerings accept h) =
      List.range' 1 (idleRecords options h path) := by
  induction h using List.reverseRecOn with
  | nil => rfl
  | append_singleton h a ih =>
    rw [Recorder.offerings_concat, idleNumbers, List.filterMap_append, ← idleNumbers, ih,
      idleRecords_concat]
    cases hop : a.op with
    | record call =>
      by_cases hc : caseAfter? (pastOf h a.stream) = none
      · by_cases hp : livePath options (pastOf h a.stream) = path
        · subst hp
          simp [offeringAfter, offerAfter, hop, hc, keyAfter_of_none, numberAfter, idlePath?,
            Operation.isRecord, Ledger.stepOf, List.range'_1_concat]
          omega
        · simp [offeringAfter, offerAfter, hop, hc, keyAfter_of_none, idlePath?, hp]
      · have hs := Option.isSome_iff_ne_none.2 hc
        simp [offeringAfter, offerAfter, hop, hs, hc, idlePath?]
    | _ => simp [offeringAfter, offerAfter, hop, idlePath?, Operation.isRecord]

end Fresh

/-! ### Counts over all streams -/

theorem idleRecords_eq (options : Options) (h : List Act) (path : List String) :
    idleRecords options h path =
      ((situations h).map fun c => idlePath? options c.before c.op).count (some path) := by
  rw [idleRecords, situations, map_eachFrom]

namespace Ledger

theorem cases_apply (options : Options) (now : UInt64) (l : Ledger) (id : String) (op : Operation) :
    (l.apply options now id op).1.cases = l.cases + if op.startsCase then 1 else 0 := by
  cases op with
  | record call => simp only [apply, record]; split <;> rfl
  | _ => rfl

/-- A stream is known from its first operation on. -/
theorem streams_apply (options : Options) (now : UInt64) (l : Ledger) (id : String)
    (op : Operation) :
    ∃ s, (l.apply options now id op).1.streams = l.streams.put id s := by
  cases op with
  | record call =>
    simp only [apply, record]
    split <;> exact ⟨_, rfl⟩
  | _ => exact ⟨_, rfl⟩

end Ledger

namespace Recorder

variable {σ : Type} (accept : Sink σ) (options : Options) (sink : σ)

theorem cases_run (h : List Act) :
    ((fresh options sink).run accept h).ledger.cases =
      (situations h).countP fun c => c.op.startsCase := by
  induction h using List.reverseRecOn with
  | nil => rfl
  | append_singleton h a ih =>
    rw [run_concat, (step_ledger ..).2, Ledger.cases_apply, ih, situations_concat,
      List.countP_append, List.countP_singleton]

/-- The streams of a ledger, each once. -/
theorem streams_run (h : List Act) :
    let streams := ((fresh options sink).run accept h).ledger.streams
    streams.Distinct ∧ ∀ id, id ∈ streams.keys ↔ ∃ a ∈ h, a.stream = id := by
  induction h using List.reverseRecOn with
  | nil => simp [fresh, Keyed.Distinct, Keyed.keys]
  | append_singleton h a ih =>
    obtain ⟨hd, hk⟩ := ih
    obtain ⟨s, hs⟩ := Ledger.streams_apply ((fresh options sink).run accept h).options a.now
      ((fresh options sink).run accept h).ledger a.stream a.op
    simp only [run_concat, (step_ledger ..).2, hs]
    refine ⟨hd.put _ _, fun id => ?_⟩
    simp [Keyed.mem_keys_put, hk, or_and_right, exists_or, eq_comm (a := id)]

end Recorder

/-! ### Two mixtures of the same streams -/

theorem mem_pastOf {h : List Act} {id : String} {op : Operation} :
    op ∈ pastOf h id ↔ ∃ a ∈ h, a.stream = id ∧ a.op = op := by
  simp [pastOf, and_assoc]

theorem exists_stream_iff (h : List Act) (id : String) :
    (∃ a ∈ h, a.stream = id) ↔ pastOf h id ≠ [] := by
  simp [pastOf, List.filter_eq_nil_iff]

/-- Two lists that hold the same elements, each once, are equally long. -/
theorem length_eq_of_nodup {α : Type} {l m : List α} (hl : l.Nodup) (hm : m.Nodup)
    (h : ∀ a, a ∈ l ↔ a ∈ m) : l.length = m.length :=
  ((List.perm_ext_iff_of_nodup hl hm).2 h).length_eq

section Same

variable {h k : List Act} (same : ∀ id, pastOf h id = pastOf k id)

include same

theorem exists_stream_congr (id : String) :
    (∃ a ∈ h, a.stream = id) ↔ ∃ a ∈ k, a.stream = id := by
  rw [exists_stream_iff, exists_stream_iff, same]

theorem timed_congr (timed : ∀ a ∈ h, a.op.isTimed) : ∀ a ∈ k, a.op.isTimed := by
  intro a ha
  have hm : a.op ∈ pastOf k a.stream := mem_pastOf.2 ⟨a, ha, rfl, rfl⟩
  rw [← same] at hm
  obtain ⟨b, hb, -, hop⟩ := mem_pastOf.1 hm
  exact hop ▸ timed b hb

theorem idleRecords_congr (options : Options) (path : List String) :
    idleRecords options h path = idleRecords options k path := by
  rw [idleRecords_eq, idleRecords_eq, ((situations_perm same).map _).count_eq]

end Same

/-! ### Events -/

namespace StreamEvent

/-- An event as an act, at a reading of the clock. -/
def act (e : UInt64 × StreamEvent) : Act :=
  ⟨e.1, e.2.stream.getD defaultStream, e.2.event.operation⟩

end StreamEvent

/-- The events of one stream; those without a stream belong to the default one. -/
def eventsOf (es : List (UInt64 × StreamEvent)) (id : String) : List Event :=
  (es.filter fun e => e.2.stream.getD defaultStream = id).map fun e => e.2.event

theorem pastOf_map_act (es : List (UInt64 × StreamEvent)) (id : String) :
    pastOf (es.map StreamEvent.act) id = (eventsOf es id).map Event.operation := by
  rw [pastOf, eventsOf, List.filter_map, List.map_map, List.map_map]
  rfl

namespace Run

variable {σ : Type}

/-- Takes events, each at its reading of the clock. -/
def feed (accept : Sink σ) (run : Run σ) (es : List (UInt64 × StreamEvent)) : Run σ :=
  es.foldl (fun run e => run.event accept e.1 e.2) run

theorem recorder_feed (accept : Sink σ) (run : Run σ) (es : List (UInt64 × StreamEvent)) :
    (run.feed accept es).recorder = run.recorder.run accept (es.map StreamEvent.act) := by
  induction es generalizing run with
  | nil => rfl
  | cons e es ih => exact ih (run.event accept e.1 e.2)

theorem feed_concat (accept : Sink σ) (run : Run σ) (es : List (UInt64 × StreamEvent))
    (e : UInt64 × StreamEvent) :
    run.feed accept (es ++ [e]) = (run.feed accept es).event accept e.1 e.2 := by
  simp [feed]

/-- The streams that a run has seen, each once. -/
theorem streams_feed (accept : Sink σ) (r : Recorder σ) (es : List (UInt64 × StreamEvent)) :
    let streams := (feed accept { recorder := r } es).streams
    streams.Nodup ∧ ∀ id, id ∈ streams ↔ ∃ a ∈ es.map StreamEvent.act, a.stream = id := by
  induction es using List.reverseRecOn with
  | nil => simp [feed]
  | append_singleton es e ih =>
    obtain ⟨hd, hk⟩ := ih
    simp only [feed_concat, event]
    have hl : ∀ id, (∃ a ∈ (es ++ [e]).map StreamEvent.act, a.stream = id) ↔
        (∃ a ∈ es.map StreamEvent.act, a.stream = id) ∨ id = e.2.stream.getD defaultStream := by
      intro id
      simp [or_and_right, exists_or, StreamEvent.act, eq_comm (a := id)]
    simp only [hl, ← hk]
    split
    · next hm => exact ⟨hd, fun id => ⟨Or.inl, fun h => h.elim (fun hi => hi) fun he => he ▸ hm⟩⟩
    · next hm => exact ⟨List.nodup_append.2 ⟨hd, by simp, by grind⟩, by simp⟩

end Run

/-- Two mixtures of the same streams of events, given to recorders with any two sinks: each sink takes
what its recorder offers it, every stream offers the same steps for its cases, and the same ones outside
all cases but for their numbers; the numbers given to a suite path are the same, and so are the counts of
cases and of streams. -/
theorem offerings_of_interleaving {σ τ : Type} (accept₁ : Sink σ) (accept₂ : Sink τ)
    (options : Options) (sink₁ : σ) (sink₂ : τ) (es₁ es₂ : List (UInt64 × StreamEvent))
    (same : ∀ id, eventsOf es₁ id = eventsOf es₂ id)
    (timed : ∀ e ∈ es₁, e.2.event.operation.isTimed) :
    let r₁ := Recorder.fresh options sink₁
    let r₂ := Recorder.fresh options sink₂
    let run₁ := Run.feed accept₁ { recorder := r₁ } es₁
    let run₂ := Run.feed accept₂ { recorder := r₂ } es₂
    let xs₁ := r₁.offerings accept₁ (es₁.map StreamEvent.act)
    let xs₂ := r₂.offerings accept₂ (es₂.map StreamEvent.act)
    run₁.recorder.sink = xs₁.foldl (fun s x => (accept₁ s x.offer).1) sink₁ ∧
      run₂.recorder.sink = xs₂.foldl (fun s x => (accept₂ s x.offer).1) sink₂ ∧
      (∀ id, inCaseOf id xs₁ = inCaseOf id xs₂) ∧
      (∀ id, unnumberedOf id xs₁ = unnumberedOf id xs₂) ∧
      (∀ path, idleNumbers path xs₁ = idleNumbers path xs₂) ∧
      run₁.recorder.ledger.cases = run₂.recorder.ledger.cases ∧
      run₁.recorder.streamCount = run₂.recorder.streamCount ∧
      run₁.streams.length = run₂.streams.length := by
  intro r₁ r₂ run₁ run₂ xs₁ xs₂
  have past : ∀ id, pastOf (es₁.map StreamEvent.act) id = pastOf (es₂.map StreamEvent.act) id := by
    intro id
    rw [pastOf_map_act, pastOf_map_act, same]
  have timed₁ : ∀ a ∈ es₁.map StreamEvent.act, a.op.isTimed := by
    intro a ha
    obtain ⟨e, he, rfl⟩ := List.mem_map.1 ha
    exact timed e he
  have timed₂ := timed_congr past timed₁
  simp only [run₁, run₂, Run.recorder_feed, Recorder.streamCount]
  refine ⟨?_, ?_, fun id => ?_, fun id => ?_, fun path => ?_, ?_, ?_, ?_⟩
  · exact Recorder.sink_run_offerings accept₁ r₁ _
  · exact Recorder.sink_run_offerings accept₂ r₂ _
  · simp only [xs₁, xs₂, r₁, r₂]
    rw [inCaseOf_offerings _ _ _ _ _ timed₁, inCaseOf_offerings _ _ _ _ _ timed₂, past]
  · simp only [xs₁, xs₂, r₁, r₂]
    rw [unnumberedOf_offerings _ _ _ _ _ timed₁, unnumberedOf_offerings _ _ _ _ _ timed₂, past]
  · simp only [xs₁, xs₂, r₁, r₂]
    rw [idleNumbers_offerings, idleNumbers_offerings, idleRecords_congr past]
  · rw [Recorder.cases_run, Recorder.cases_run, (situations_perm past).countP_eq]
  · obtain ⟨d₁, k₁⟩ := Recorder.streams_run accept₁ options sink₁ (es₁.map StreamEvent.act)
    obtain ⟨d₂, k₂⟩ := Recorder.streams_run accept₂ options sink₂ (es₂.map StreamEvent.act)
    have hlength := length_eq_of_nodup d₁ d₂ fun id => by rw [k₁, k₂, exists_stream_congr past]
    simpa [Keyed.keys] using hlength
  · obtain ⟨d₁, k₁⟩ := Run.streams_feed accept₁ r₁ es₁
    obtain ⟨d₂, k₂⟩ := Run.streams_feed accept₂ r₂ es₂
    exact length_eq_of_nodup d₁ d₂ fun id => by rw [k₁, k₂, exists_stream_congr past]

/-- A step in a case of the default stream, which is named in one mixture only, and steps of two streams
outside all cases. -/
theorem offerings_of_two_streams :
    let sighting : Sighting :=
      { line := 1, column := 0, vars := [], ret := false, file := none, ts := some 7 }
    let es₁ : List (UInt64 × StreamEvent) :=
      [(1, ⟨none, .caseStart "t" none⟩), (2, ⟨none, .record sighting⟩), (3, ⟨none, .caseEnd⟩),
        (4, ⟨none, .record sighting⟩), (5, ⟨some "w", .record sighting⟩)]
    let es₂ : List (UInt64 × StreamEvent) :=
      [(9, ⟨some "", .caseStart "t" none⟩), (8, ⟨some "w", .record sighting⟩),
        (7, ⟨some "", .record sighting⟩), (6, ⟨some "", .caseEnd⟩), (5, ⟨none, .record sighting⟩)]
    let r := Recorder.fresh {} ((0, []) : Nat × List Offer)
    let xs₁ := r.offerings (Sink.list []) (es₁.map StreamEvent.act)
    let xs₂ := r.offerings (Sink.list [1]) (es₂.map StreamEvent.act)
    (∀ id, eventsOf es₁ id = eventsOf es₂ id) ∧ (∀ e ∈ es₁, e.2.event.operation.isTimed) ∧
      (∀ id, inCaseOf id xs₁ = inCaseOf id xs₂) ∧
      ∀ path, idleNumbers path xs₁ = idleNumbers path xs₂ := by
  intro sighting es₁ es₂ r xs₁ xs₂
  have same : ∀ id, eventsOf es₁ id = eventsOf es₂ id := by
    intro id
    by_cases h : "" = id
    · subst h
      rfl
    · by_cases hw : "w" = id
      · subst hw
        rfl
      · simp [eventsOf, es₁, es₂, defaultStream, h, hw]
  have timed : ∀ e ∈ es₁, e.2.event.operation.isTimed := by decide +kernel
  obtain ⟨-, -, hc, -, hn, -⟩ := offerings_of_interleaving (Sink.list []) (Sink.list [1]) {} (0, [])
    (0, []) es₁ es₂ same timed
  exact ⟨same, timed, hc, hn⟩

end StepTrace.Recording
