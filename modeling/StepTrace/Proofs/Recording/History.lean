import Mathlib.Data.List.Basic
import Mathlib.Data.List.Induction
import Mathlib.Data.List.ReduceOption
import StepTrace.Recording.Recorder

/-!
Histories of operations over any number of streams. The case and the number of a step are told here from
what happened before it, without any counter; a recorder keeps counters instead and offers its sink
exactly the same steps.
-/
namespace StepTrace.Recording

/-- An operation of a stream, with what the clock shows when it is carried out. -/
structure Act where
  now : UInt64
  stream : String
  op : Operation

namespace Operation

def isRecord : Operation → Bool
  | record _ => true
  | _ => false

/-- Whether a case starts or ends. -/
def turnsCase : Operation → Bool
  | startCase .. | endCase => true
  | _ => false

/-- Whether a suite is opened or closed. -/
def turnsSuite : Operation → Bool
  | enterSuite _ | exitSuite => true
  | _ => false

/-- Whether numbering starts again. -/
def restarts : Operation → Bool
  | startCase .. | reset => true
  | _ => false

end Operation

/-! ### What the operations of one stream tell -/

/-- The suites that are open after some operations; closing one when none is open does nothing. -/
def suitesAfter (ops : List Operation) : List String :=
  ops.foldl (fun names op =>
    match op with
    | .enterSuite name => names ++ [name]
    | .exitSuite => names.dropLast
    | _ => names) []

/-- The case that was started last, with the suite path it came with, unless a case ended after that. -/
def caseAfter? (ops : List Operation) : Option (String × Option (List String)) :=
  match ops.reverse.find? Operation.turnsCase with
  | some (.startCase name path) => some (name, path)
  | _ => none

/-- The open suites, or the one suite of steps outside all suites. -/
def livePath (options : Options) (ops : List Operation) : List String :=
  match suitesAfter ops with
  | [] => [options.suiteName]
  | names => names

/-- The case of the next step. -/
def keyAfter (options : Options) (ops : List Operation) : CaseKey :=
  match caseAfter? ops with
  | some (name, some (first :: rest)) => ⟨first :: rest, name⟩
  | some (name, _) => ⟨livePath options ops, name⟩
  | none => ⟨livePath options ops, unknownTest⟩

/-- How many steps there were since numbering started last. -/
def recordsSinceStart (ops : List Operation) : Nat :=
  (ops.reverse.takeWhile fun op => !op.restarts).countP Operation.isRecord

/-- The suite path under which an operation counts as a step outside all cases, if it does. -/
def idlePath? (options : Options) (ops : List Operation) (op : Operation) : Option (List String) :=
  if op.isRecord ∧ (caseAfter? ops).isNone then some (livePath options ops) else none

/-! ### What the history of all streams tells -/

/-- What one stream did in a history. -/
def pastOf (h : List Act) (stream : String) : List Operation :=
  (h.filter fun a => a.stream = stream).map Act.op

/-- What is told of each element of a list from those before it; `past` came before all of them. -/
def eachFrom {α β : Type} (f : List α → α → β) (past : List α) : List α → List β
  | [] => []
  | a :: rest => f past a :: eachFrom f (past ++ [a]) rest

/-- Something holds of every act of a history and those before it. -/
def Throughout (P : List Act → Act → Prop) (h : List Act) : Prop :=
  ∀ x ∈ eachFrom Prod.mk [] h, P x.1 x.2

instance (P : List Act → Act → Prop) [∀ past a, Decidable (P past a)] (h : List Act) :
    Decidable (Throughout P h) :=
  inferInstanceAs (Decidable (∀ x ∈ eachFrom Prod.mk [] h, P x.1 x.2))

/-- How many steps outside all cases, of whatever stream, counted under a suite path. -/
def idleRecords (options : Options) (h : List Act) (path : List String) : Nat :=
  (eachFrom (fun past a => idlePath? options (pastOf past a.stream) a.op) [] h).count (some path)

/-- The number of the next step of a stream. -/
def numberAfter (options : Options) (h : List Act) (stream : String) : Nat :=
  let ops := pastOf h stream
  if (caseAfter? ops).isSome then recordsSinceStart ops + 1
  else idleRecords options h (livePath options ops) + 1

/-- The step that an act offers after a history. -/
def offerAfter (options : Options) (h : List Act) (a : Act) : Option Offer :=
  match a.op with
  | .record call =>
    let key := keyAfter options (pastOf h a.stream)
    some ⟨key, Ledger.stepOf options a.now key (numberAfter options h a.stream) call⟩
  | _ => none

/-- The steps that a history offers, one for each record in it. -/
def offersOf (options : Options) (h : List Act) : List Offer :=
  (eachFrom (offerAfter options) [] h).reduceOption

/-- The ways to take one element out of a list, with what is before it and after it. -/
def splits {α : Type} : List α → List (List α × α × List α)
  | [] => []
  | a :: r => ([], a, r) :: (splits r).map fun x => (a :: x.1, x.2)

theorem mem_splits {α : Type} {l before after : List α} {a : α} :
    (before, a, after) ∈ splits l ↔ l = before ++ a :: after := by
  induction l generalizing before with
  | nil => simp [splits]
  | cons b r ih =>
    cases before with
    | nil => simp [splits, eq_comm]
    | cons c before => simp [splits, ih, and_comm, eq_comm (a := b)]

theorem eachFrom_append {α β : Type} (f : List α → α → β) (past h k : List α) :
    eachFrom f past (h ++ k) = eachFrom f past h ++ eachFrom f (past ++ h) k := by
  induction h generalizing past with
  | nil => simp [eachFrom]
  | cons a h ih => simp [eachFrom, ih]

@[simp] theorem eachFrom_concat {α β : Type} (f : List α → α → β) (h : List α) (a : α) :
    eachFrom f [] (h ++ [a]) = eachFrom f [] h ++ [f h a] := by
  simp [eachFrom_append, eachFrom]

theorem map_eachFrom {α β γ : Type} (f : List α → α → β) (g : β → γ) (past h : List α) :
    (eachFrom f past h).map g = eachFrom (fun past a => g (f past a)) past h := by
  induction h generalizing past with
  | nil => rfl
  | cons a h ih => simp [eachFrom, ih]

theorem throughout_concat {P : List Act → Act → Prop} {h : List Act} {a : Act} :
    Throughout P (h ++ [a]) ↔ Throughout P h ∧ P h a := by
  simp only [Throughout, eachFrom_concat, List.forall_mem_append, List.forall_mem_singleton]

theorem Throughout.of_append {P : List Act → Act → Prop} {h k : List Act}
    (hp : Throughout P (h ++ k)) : Throughout P h := by
  intro x hm
  exact hp x (by simp [eachFrom_append, hm])

theorem pastOf_concat (h : List Act) (a : Act) (stream : String) :
    pastOf (h ++ [a]) stream =
      if a.stream = stream then pastOf h stream ++ [a.op] else pastOf h stream := by
  by_cases hs : a.stream = stream <;> simp [pastOf, hs]

theorem idleRecords_concat (options : Options) (h : List Act) (a : Act) (path : List String) :
    idleRecords options (h ++ [a]) path = idleRecords options h path +
      if idlePath? options (pastOf h a.stream) a.op = some path then 1 else 0 := by
  simp [idleRecords, List.count_singleton]

theorem offersOf_concat (options : Options) (h : List Act) (a : Act) :
    offersOf options (h ++ [a]) = offersOf options h ++ (offerAfter options h a).toList := by
  simp [offersOf, List.reduceOption_append, List.reduceOption_singleton]

theorem suitesAfter_concat (ops : List Operation) (op : Operation) :
    suitesAfter (ops ++ [op]) =
      match op with
      | .enterSuite name => suitesAfter ops ++ [name]
      | .exitSuite => (suitesAfter ops).dropLast
      | _ => suitesAfter ops := by
  simp [suitesAfter]

theorem caseAfter?_concat (ops : List Operation) (op : Operation) :
    caseAfter? (ops ++ [op]) =
      match op with
      | .startCase name path => some (name, path)
      | .endCase => none
      | _ => caseAfter? ops := by
  cases op <;> simp [caseAfter?, List.find?_cons, Operation.turnsCase]

theorem recordsSinceStart_concat (ops : List Operation) (op : Operation) :
    recordsSinceStart (ops ++ [op]) =
      if op.restarts then 0 else recordsSinceStart ops + if op.isRecord then 1 else 0 := by
  cases op <;> simp [recordsSinceStart, Operation.restarts, Operation.isRecord, List.countP_cons]

theorem keyAfter_of_none (options : Options) {ops : List Operation} (h : caseAfter? ops = none) :
    keyAfter options ops = ⟨livePath options ops, unknownTest⟩ := by
  simp [keyAfter, h]

theorem idlePath?_eq_some {options : Options} {ops : List Operation} {op : Operation}
    {path : List String} :
    idlePath? options ops op = some path ↔
      op.isRecord ∧ caseAfter? ops = none ∧ livePath options ops = path := by
  simp [idlePath?, and_assoc]

/-- A step bears the names of the case that it is offered under. -/
theorem labels_of_offerAfter {options : Options} {h : List Act} {a : Act} {o : Offer}
    (ho : offerAfter options h a = some o) :
    o.step.suite = suiteSeparator.intercalate o.case.suitePath ∧ o.step.test = o.case.test := by
  simp only [offerAfter] at ho
  split at ho
  · cases ho
    exact ⟨rfl, rfl⟩
  · cases ho

theorem offerAfter_eq_some {options : Options} {h : List Act} {a : Act} {o : Offer}
    (ho : offerAfter options h a = some o) :
    a.op.isRecord ∧ o.case = keyAfter options (pastOf h a.stream) ∧
      o.step.stepNumber = numberAfter options h a.stream := by
  unfold offerAfter at ho
  split at ho
  · next hop =>
    cases ho
    simp [hop, Operation.isRecord, Ledger.stepOf]
  · cases ho

/-- A step that is offered was recorded by some act of the history. -/
theorem exists_of_mem_offersOf {options : Options} {h : List Act} {o : Offer}
    (ho : o ∈ offersOf options h) :
    ∃ before a between, h = before ++ a :: between ∧ offerAfter options before a = some o := by
  induction h using List.reverseRecOn with
  | nil => simp [offersOf, eachFrom] at ho
  | append_singleton h a ih =>
    rw [offersOf_concat] at ho
    rcases List.mem_append.1 ho with ho | ho
    · obtain ⟨before, b, between, rfl, hb⟩ := ih ho
      exact ⟨before, b, between ++ [a], by simp, hb⟩
    · exact ⟨h, a, [], rfl, Option.mem_toList.1 ho⟩

/-- The steps of a history are as many as its records. -/
theorem length_offersOf (options : Options) (h : List Act) :
    (offersOf options h).length = h.countP fun a => a.op.isRecord := by
  induction h using List.reverseRecOn with
  | nil => rfl
  | append_singleton h a ih =>
    rw [offersOf_concat, List.length_append, ih, List.countP_append, List.countP_singleton]
    cases hop : a.op <;> simp [offerAfter, hop, Operation.isRecord]

/-! ### What an operation does to a ledger -/

namespace StreamState

/-- What an operation does to the state of its own stream. -/
def after (s : StreamState) : Operation → StreamState
  | .enterSuite name => { s with suites := s.suites.push name }
  | .exitSuite => { s with suites := s.suites.pop }
  | .startCase name path => s.startCase name path
  | .endCase => { s with active := none }
  | .reset => { s with counter := 0 }
  | .record _ => if s.active.isSome then { s with counter := s.counter + 1 } else s

end StreamState

namespace Ledger

theorem stream_setStream (l : Ledger) (id id' : String) (s : StreamState) :
    (l.setStream id s).stream id' = if id = id' then s else l.stream id' := by
  by_cases h : id = id' <;> simp [stream, setStream, Keyed.get?_put, h]

/-- An operation changes the state of its own stream alone. -/
theorem stream_apply (options : Options) (now : UInt64) (l : Ledger) (id id' : String)
    (op : Operation) :
    (l.apply options now id op).1.stream id' =
      if id = id' then (l.stream id).after op else l.stream id' := by
  have frame : ∀ (idle : Keyed (List String) Nat) (n : Nat) (s : StreamState),
      Ledger.stream { l.setStream id s with idle := idle, cases := n } id' =
        if id = id' then s else l.stream id' := fun _ _ s => stream_setStream l id id' s
  cases op with
  | enterSuite name => exact stream_setStream l id id' _
  | exitSuite => exact stream_setStream l id id' _
  | startCase name path => exact frame _ _ _
  | endCase => exact stream_setStream l id id' _
  | reset => exact stream_setStream l id id' _
  | record call =>
    simp only [apply, record, StreamState.after]
    split
    · exact stream_setStream l id id' _
    · exact frame _ _ _

/-- Only a step outside all cases is counted for a suite path. -/
theorem idleCount_apply (options : Options) (now : UInt64) (l : Ledger) (id : String)
    (op : Operation) (path : List String) :
    (l.apply options now id op).1.idleCount path = l.idleCount path +
      if op.isRecord ∧ (l.stream id).active = none ∧
        ((l.stream id).currentCase options).suitePath = path then 1 else 0 := by
  cases op with
  | record call =>
    simp only [apply, record]
    cases ha : (l.stream id).active with
    | some c => simp [idleCount, setStream]
    | none =>
      by_cases hp : ((l.stream id).currentCase options).suitePath = path <;>
        simp [idleCount, Keyed.get?_put, Operation.isRecord, hp]
  | _ => simp [apply, idleCount, setStream, Operation.isRecord]

/-- A record is offered under the current case of its stream, and under the next number there. -/
theorem offered_apply (options : Options) (now : UInt64) (l : Ledger) (id : String)
    (op : Operation) :
    (l.apply options now id op).2 =
      match op with
      | .record call =>
        let key := (l.stream id).currentCase options
        let n := if (l.stream id).active.isSome then (l.stream id).counter + 1
          else l.idleCount key.suitePath + 1
        some ⟨key, stepOf options now key n call⟩
      | _ => none := by
  cases op with
  | record call => simp only [apply, record]; split <;> rfl
  | _ => rfl

end Ledger

/-! ### Counters and histories agree -/

/-- The state of a stream is what its operations tell. The counter means nothing outside a case. -/
structure StreamState.Reflects (s : StreamState) (ops : List Operation) : Prop where
  suites : s.suites.names = suitesAfter ops
  active : s.active = (caseAfter? ops).map fun c => ⟨c.1, c.2.filter (!·.isEmpty)⟩
  counter : s.active.isSome → s.counter = recordsSinceStart ops

namespace StreamState.Reflects

variable {s : StreamState} {ops : List Operation}

theorem initial : StreamState.Reflects {} [] := ⟨rfl, rfl, by simp⟩

theorem after (hs : s.Reflects ops) (op : Operation) : (s.after op).Reflects (ops ++ [op]) := by
  have hc := hs.counter
  cases op with
  | startCase name path =>
    refine ⟨?_, ?_, fun _ => ?_⟩
    · simpa [StreamState.after, startCase, suitesAfter_concat] using hs.suites
    · simp [StreamState.after, startCase, caseAfter?_concat]
    · simp [StreamState.after, startCase, recordsSinceStart_concat, Operation.restarts]
  | record call =>
    cases ha : s.active with
    | none =>
      refine ⟨?_, ?_, ?_⟩
      · simpa [StreamState.after, ha, suitesAfter_concat] using hs.suites
      · simpa [StreamState.after, ha, caseAfter?_concat] using hs.active
      · simp [StreamState.after, ha]
    | some c =>
      refine ⟨?_, ?_, fun _ => ?_⟩
      · simpa [StreamState.after, ha, suitesAfter_concat] using hs.suites
      · simpa [StreamState.after, ha, caseAfter?_concat] using hs.active
      · simpa [StreamState.after, ha, recordsSinceStart_concat, Operation.restarts,
          Operation.isRecord] using hc
  | enterSuite name | exitSuite =>
    refine ⟨?_, ?_, ?_⟩
    · simp [StreamState.after, Suites.push, Suites.pop, suitesAfter_concat, hs.suites]
    · simp [StreamState.after, caseAfter?_concat, hs.active]
    · simpa [StreamState.after, recordsSinceStart_concat, Operation.restarts,
        Operation.isRecord] using hc
  | endCase =>
    refine ⟨?_, ?_, by simp [StreamState.after]⟩
    · simp [StreamState.after, suitesAfter_concat, hs.suites]
    · simp [StreamState.after, caseAfter?_concat]
  | reset =>
    refine ⟨?_, ?_, fun _ => ?_⟩
    · simp [StreamState.after, suitesAfter_concat, hs.suites]
    · simp [StreamState.after, caseAfter?_concat, hs.active]
    · simp [StreamState.after, recordsSinceStart_concat, Operation.restarts]

theorem pathOr_eq (hs : s.Reflects ops) (options : Options) :
    s.suites.pathOr options.suiteName = livePath options ops := by
  simp only [Suites.pathOr, livePath, hs.suites]
  cases suitesAfter ops <;> rfl

theorem currentCase_eq (hs : s.Reflects ops) (options : Options) :
    s.currentCase options = keyAfter options ops := by
  simp only [currentCase, keyAfter, hs.active, hs.pathOr_eq]
  rcases caseAfter? ops with _ | ⟨name, _ | _ | ⟨first, rest⟩⟩ <;> rfl

theorem active_isSome (hs : s.Reflects ops) : s.active.isSome = (caseAfter? ops).isSome := by
  rw [hs.active, Option.isSome_map]

end StreamState.Reflects

/-- The state of a ledger is what a history tells. -/
structure Ledger.Reflects (options : Options) (l : Ledger) (h : List Act) : Prop where
  stream : ∀ id, (l.stream id).Reflects (pastOf h id)
  idle : ∀ path, l.idleCount path = idleRecords options h path

namespace Ledger.Reflects

variable {options : Options} {l : Ledger} {h : List Act}

theorem initial (options : Options) : Ledger.Reflects options {} [] :=
  ⟨fun _ => StreamState.Reflects.initial, fun _ => rfl⟩

theorem apply (hl : l.Reflects options h) (a : Act) :
    (l.apply options a.now a.stream a.op).1.Reflects options (h ++ [a]) := by
  constructor
  · intro id
    rw [stream_apply, pastOf_concat]
    split
    · next hid => exact hid ▸ (hl.stream a.stream).after a.op
    · exact hl.stream id
  · intro path
    have hs := hl.stream a.stream
    rw [idleCount_apply, idleRecords_concat, hl.idle, hs.currentCase_eq]
    have hn : (l.stream a.stream).active = none ↔ caseAfter? (pastOf h a.stream) = none := by
      rw [hs.active, Option.map_eq_none_iff]
    simp only [hn, idlePath?_eq_some]
    -- outside all cases the suite path of the current case is the live one
    congr 1
    refine if_congr (and_congr_right fun _ => and_congr_right fun hc => ?_) rfl rfl
    rw [keyAfter_of_none options hc]

theorem offered (hl : l.Reflects options h) (a : Act) :
    (l.apply options a.now a.stream a.op).2 = offerAfter options h a := by
  have hs := hl.stream a.stream
  rw [offered_apply, offerAfter]
  cases a.op with
  | record call =>
    simp only [hs.currentCase_eq, hs.active_isSome, numberAfter]
    cases hc : caseAfter? (pastOf h a.stream) with
    | none => simp [keyAfter, hc, hl.idle]
    | some c =>
      have ha : (l.stream a.stream).active.isSome := by rw [hs.active_isSome, hc]; rfl
      simp [hs.counter ha]
  | _ => rfl

end Ledger.Reflects

/-! ### Runs of a recorder -/

namespace Recorder

variable {σ : Type}

/-- A recorder that has seen nothing. -/
def fresh (options : Options) (sink : σ) : Recorder σ := { options, sink }

def step (accept : Sink σ) (r : Recorder σ) (a : Act) : Recorder σ :=
  r.apply accept a.now a.stream a.op

/-- Carries out the acts of a history, the first one first. -/
def run (accept : Sink σ) (r : Recorder σ) (h : List Act) : Recorder σ := h.foldl (step accept) r

@[simp] theorem run_nil (accept : Sink σ) (r : Recorder σ) : r.run accept [] = r := rfl

@[simp] theorem run_concat (accept : Sink σ) (r : Recorder σ) (h : List Act) (a : Act) :
    r.run accept (h ++ [a]) = (r.run accept h).step accept a := by
  simp [run]

/-- Neither the options nor the ledger learn anything of the sink. -/
theorem step_ledger (accept : Sink σ) (r : Recorder σ) (a : Act) :
    (r.step accept a).options = r.options ∧
      (r.step accept a).ledger = (r.ledger.apply r.options a.now a.stream a.op).1 := by
  simp only [step, apply]
  split
  · exact ⟨rfl, rfl⟩
  · simp only [offer]
    split <;> exact ⟨rfl, rfl⟩

theorem step_sink (accept : Sink σ) (r : Recorder σ) (a : Act) :
    (r.step accept a).sink =
      match (r.ledger.apply r.options a.now a.stream a.op).2 with
      | some o => (accept r.sink o).1
      | none => r.sink := by
  simp only [step, apply]
  split
  · next h => simp [h]
  · next h =>
    simp only [h, offer]
    split <;> rfl

/-- What an act adds to the counts of a recorder. -/
theorem step_counts (accept : Sink σ) (r : Recorder σ) (a : Act) :
    let kept := (r.ledger.apply r.options a.now a.stream a.op).2.map fun o => (accept r.sink o).2
    (r.step accept a).written = r.written + (if kept = some true then 1 else 0) ∧
      (r.step accept a).dropped = r.dropped + if kept = some false then 1 else 0 := by
  simp only [step, apply]
  cases (r.ledger.apply r.options a.now a.stream a.op).2 with
  | none => simp
  | some o =>
    simp only [offer]
    cases hk : (accept r.sink o).2 <;> simp [hk]

theorem run_reflects (accept : Sink σ) (options : Options) (sink : σ) (h : List Act) :
    ((fresh options sink).run accept h).options = options ∧
      ((fresh options sink).run accept h).ledger.Reflects options h := by
  induction h using List.reverseRecOn with
  | nil => exact ⟨rfl, Ledger.Reflects.initial options⟩
  | append_singleton h a ih =>
    obtain ⟨ho, hl⟩ := step_ledger accept ((fresh options sink).run accept h) a
    rw [run_concat, ho, hl, ih.1]
    exact ⟨rfl, ih.2.apply a⟩

theorem offered_run (accept : Sink σ) (options : Options) (sink : σ) (h : List Act) (a : Act) :
    let r := (fresh options sink).run accept h
    (r.ledger.apply r.options a.now a.stream a.op).2 = offerAfter options h a := by
  obtain ⟨ho, hl⟩ := run_reflects accept options sink h
  simp only [ho]
  exact hl.offered a

/-- The sink of a recorder receives the steps that the history offers: one for each record, in order,
each under the case and the number that the acts before it tell, and nothing else. -/
theorem sink_run (accept : Sink σ) (options : Options) (sink : σ) (h : List Act) :
    ((fresh options sink).run accept h).sink =
        (offersOf options h).foldl (fun s o => (accept s o).1) sink ∧
      ∀ o ∈ offersOf options h,
        o.step.suite = suiteSeparator.intercalate o.case.suitePath ∧ o.step.test = o.case.test := by
  induction h using List.reverseRecOn with
  | nil => exact ⟨rfl, by simp [offersOf, eachFrom]⟩
  | append_singleton h a ih =>
    have ho := offered_run accept options sink h a
    rw [run_concat, step_sink, offersOf_concat, ho, List.foldl_append, ← ih.1]
    constructor
    · cases offerAfter options h a <;> rfl
    · intro o hm
      rcases List.mem_append.1 hm with hm | hm
      · exact ih.2 o hm
      · exact labels_of_offerAfter (Option.mem_toList.1 hm)

end Recorder

end StepTrace.Recording
