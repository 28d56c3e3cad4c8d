import StepTrace.Proofs.Recording.Lines
import StepTrace.Proofs.Store.Written

/-!
A file of events that is taken twice. What a ledger offers depends on the clock in the times of steps alone,
so the second time every step has the name that it had the first time. Its file is there, whether it was
written then or was in the way, and nothing happens to the store.
-/
namespace StepTrace

namespace Recording

/-- The case and the number of a step, by which its file is found. -/
def Offer.label (o : Offer) : CaseKey × Nat := (o.case, o.step.stepNumber)

/-- The clock shows in the time of a step alone. -/
theorem Ledger.apply_of_clock (options : Options) (now later : UInt64) (l : Ledger) (id : String)
    (op : Operation) :
    (l.apply options later id op).1 = (l.apply options now id op).1 ∧
      (l.apply options later id op).2.map Offer.label =
        (l.apply options now id op).2.map Offer.label := by
  cases op with
  | record call =>
    simp only [apply, record]
    split <;> exact ⟨rfl, rfl⟩
  | _ => exact ⟨rfl, rfl⟩

namespace Recorder

variable {σ τ : Type}

/-- The same events leave the same ledger and are offered under the same labels, whatever the clocks show
and the sinks do. -/
theorem offerings_of_clock (accept : Sink σ) (accept' : Sink τ) (now later : UInt64) (r : Recorder σ)
    (r' : Recorder τ) (options : r'.options = r.options) (ledger : r'.ledger = r.ledger)
    (es : List StreamEvent) :
    (r'.run accept' (actsAt later es)).ledger = (r.run accept (actsAt now es)).ledger ∧
      (r'.offerings accept' (actsAt later es)).map (Offer.label ∘ Offering.offer) =
        (r.offerings accept (actsAt now es)).map (Offer.label ∘ Offering.offer) := by
  induction es generalizing r r' with
  | nil => exact ⟨ledger, rfl⟩
  | cons e es ih =>
    let a := StreamEvent.act (now, e)
    let a' := StreamEvent.act (later, e)
    obtain ⟨hstate, hlabel⟩ :=
      r.ledger.apply_of_clock r.options now later (e.stream.getD defaultStream) e.event.operation
    obtain ⟨ho, hl⟩ := step_ledger accept r a
    obtain ⟨ho', hl'⟩ := step_ledger accept' r' a'
    have hnext : (r'.step accept' a').ledger = (r.step accept a).ledger := by
      rw [hl, hl', options, ledger]
      exact hstate
    obtain ⟨hrun, hoffers⟩ := ih _ _ (ho'.trans (options.trans ho.symm)) hnext
    refine ⟨hrun, ?_⟩
    have hone : (r'.offering? a').map (Offer.label ∘ Offering.offer) =
        (r.offering? a).map (Offer.label ∘ Offering.offer) := by
      simp only [offering?, Option.map_map, options, ledger]
      exact hlabel
    have hlist := congrArg Option.toList hone
    rw [Option.toList_map, Option.toList_map] at hlist
    exact (List.map_append ..).trans ((congr($hlist ++ $hoffers)).trans (List.map_append ..).symm)

/-- Every step that is offered is counted, as written or as dropped. -/
theorem written_add_dropped_run (accept : Sink σ) (options : Options) (sink : σ) (h : List Act) :
    ((fresh options sink).run accept h).written + ((fresh options sink).run accept h).dropped =
      (offersOf options h).length := by
  induction h using List.reverseRecOn with
  | nil => rfl
  | append_singleton h a ih =>
    have hoffered := offered_run accept options sink h a
    obtain ⟨hw, hd⟩ := step_counts accept ((fresh options sink).run accept h) a
    simp only [run_concat, hw, hd, hoffered, offersOf_concat, List.length_append, ← ih]
    cases offerAfter options h a with
    | none => simp
    | some o =>
      cases hk : (accept ((fresh options sink).run accept h).sink o).2 <;> simp [hk] <;> omega

end Recorder
end Recording

namespace Disk

/-- No way leads to the answer that something exists already. -/
theorem resolve_ne_alreadyExists (d : Disk) (p : Path) : d.resolve p ≠ .error .alreadyExists := by
  have hadvance : ∀ here c, d.advance here c ≠ .error .alreadyExists := by
    intro here c
    unfold advance
    split
    · nofun
    · nofun
    · cases c with
      | name s =>
        by_cases hs : nameLimit < s.utf8ByteSize <;> simp [hs]
      | _ => simp
  have hfold : ∀ (cs : List Path.Component) (here : Location),
      cs.foldlM d.advance here ≠ .error .alreadyExists := by
    intro cs
    induction cs with
    | nil => exact fun _ h => by cases h
    | cons c cs ih =>
      intro here h
      rw [List.foldlM_cons] at h
      cases hc : d.advance here c with
      | error e =>
        rw [hc] at h
        cases h
        exact hadvance here c hc
      | ok next =>
        rw [hc] at h
        exact ih next h
  unfold resolve
  split
  · nofun
  · split
    · nofun
    · split
      · nofun
      · exact hfold _ _

/-- A file cannot be created for the reason that something exists only where something does. -/
theorem lookup_of_alreadyExists {d : Disk} {p : Path} {bytes : ByteArray}
    (named : p.meansDirectory = false) (h : d.createFile p bytes = .error .alreadyExists) :
    (d.lookup p).isOk := by
  unfold createFile at h
  unfold lookup
  cases hl : d.resolve p with
  | error e =>
    rw [hl] at h
    cases h
    exact absurd hl (resolve_ne_alreadyExists d p)
  | ok l =>
    simp only [hl, bind, Except.bind, named] at h ⊢
    cases he : d.entry? l with
    | none =>
      rw [he] at h
      cases h
    | some e => cases e <;> rfl

end Disk

namespace Store

open Recording

variable {root : Path} {options : Options} {d : Disk}

/-- The file of a step is never meant to be a directory. -/
theorem meansDirectory_stepFile (root : Path) (o : Offer) : (stepFile root o).meansDirectory = false := by
  have hname := isName_fileName o.step.stepNumber
  have habs : Path.isAbsolute ⟨fileName o.step.stepNumber⟩ = false := Path.isAbsolute_of_isName hname
  have hends : ∃ t, (stepFile root o).text.toList = t ++ ['.', 'j', 's', 'o', 'n'] := by
    have hlist := toList_fileName o.step.stepNumber
    change ∃ t, ((caseDir root o.case).join ⟨fileName o.step.stepNumber⟩).text.toList = _
    unfold Path.join
    rw [habs, if_neg Bool.false_ne_true]
    split
    · exact ⟨(caseDir root o.case).text.toList ++ (toString o.step.stepNumber).toList, by
        rw [String.toList_append, hlist, List.append_assoc]⟩
    · exact ⟨((caseDir root o.case).text ++ "/").toList ++ (toString o.step.stepNumber).toList, by
        rw [String.toList_append, hlist, List.append_assoc]⟩
  obtain ⟨t, ht⟩ := hends
  simp [Path.meansDirectory, ht]

/-- The file of a step has its name from the label alone. -/
theorem stepFile_congr (root : Path) {o o' : Offer} (h : o'.label = o.label) :
    stepFile root o' = stepFile root o := by
  obtain ⟨hcase, hnumber⟩ := Prod.mk.inj h
  rw [stepFile, stepFile, hcase, hnumber]

/-- After a write something has the name of the file of its step, if the write could be refused for that
reason only. -/
theorem lookup_of_write {o : Offer}
    (refused : ∀ x ∈ refusal? root d o, x.2 = .store (stepFile root o).text existsMessage) :
    ((write root d o).1.lookup (stepFile root o)).isOk := by
  unfold refusal? at refused
  cases hw : write root d o with
  | mk d' answer =>
    cases answer with
    | ok p =>
      obtain ⟨rfl, -, hread, -⟩ := file_of_write hw
      rw [Disk.lookup_of_read hread]
      rfl
    | error f =>
      obtain rfl := refused (d', f) (by simp [hw])
      unfold write at hw
      cases hd : d.createDirAll (caseDir root o.case) with
      | mk e made =>
        cases made with
        | error _ => simp [hd] at hw
        | ok _ =>
          cases hf : e.createFile (stepFile root o) (content o.step) with
          | ok _ => simp [hd, hf] at hw
          | error cause =>
            cases cause with
            | alreadyExists =>
              obtain rfl : e = d' := by simpa [hd, hf] using hw
              exact Disk.lookup_of_alreadyExists (meansDirectory_stepFile root o) hf
            | _ => simp [hd, hf] at hw

/-- After a history something has the name of the file of each of its steps. -/
theorem lookup_of_run {h : List Act}
    (refused : Throughout (RefusedOnlyIf root options d fun _ o f =>
      f = .store (stepFile root o).text existsMessage) h) :
    ∀ o ∈ offersOf options h, ((after root options d h).lookup (stepFile root o)).isOk := by
  induction h using List.reverseRecOn with
  | nil => simp [offersOf, eachFrom]
  | append_singleton h a ih =>
    obtain ⟨rh, ra⟩ := throughout_concat.1 refused
    intro o hm
    rw [offersOf_concat] at hm
    rw [after_concat]
    rcases List.mem_append.1 hm with hm | hm
    · have hold := ih rh o hm
      cases offerAfter options h a with
      | none => exact hold
      | some o' =>
        cases hl : (after root options d h).lookup (stepFile root o) with
        | error e => rw [hl] at hold; cases hold
        | ok e =>
          have hnew := (grows_write root (after root options d h) o').lookup hl
          simp only [sink_fst, hnew]
          rfl
    · have ho := Option.mem_toList.1 hm
      rw [Option.mem_def.1 ho]
      simp only [sink_fst]
      exact lookup_of_write (ra o ho)

/-- Where something has the names of all the files, no step is written and nothing happens. -/
theorem writeAll_of_exists {os : List Offer} (there : ∀ o ∈ os, (d.lookup (stepFile root o)).isOk) :
    writeAll root d os = d ∧ written root d os = [] := by
  induction os with
  | nil => exact ⟨rfl, rfl⟩
  | cons o os ih =>
    obtain ⟨ho, hos⟩ := List.forall_mem_cons.1 there
    have hw := write_of_exists ho
    simpa [writeAll, written, hw] using ih hos

/-- Events that are taken a second time, by a new recorder and at another time, leave the store as it is, if
the first time steps were refused only because something had the names of their files. -/
theorem run_again (now later : UInt64) (es : List StreamEvent)
    (refused : Throughout (RefusedOnlyIf root options d fun _ o f =>
      f = .store (stepFile root o).text existsMessage) (actsAt now es)) :
    let first := (Recorder.fresh options d).run (sink root) (actsAt now es)
    let second := (Recorder.fresh options first.sink).run (sink root) (actsAt later es)
    second.sink = first.sink ∧ second.ledger = first.ledger ∧ second.written = 0 ∧
      second.dropped = first.written + first.dropped := by
  intro first second
  let offers := offersOf options (actsAt now es)
  let offers' := offersOf options (actsAt later es)
  obtain ⟨hledger, hofferings⟩ := Recorder.offerings_of_clock (sink root) (sink root) now later
    (.fresh options d) (.fresh options first.sink) rfl rfl es
  have hlabels : offers'.map Offer.label = offers.map Offer.label := by
    rw [← List.map_map, ← List.map_map, Recorder.map_offerings, Recorder.map_offerings] at hofferings
    exact hofferings
  have there : ∀ o' ∈ offers', (first.sink.lookup (stepFile root o')).isOk := by
    intro o' ho'
    obtain ⟨o, ho, hlabel⟩ := List.mem_map.1 (hlabels ▸ List.mem_map_of_mem ho')
    rw [stepFile_congr root hlabel.symm]
    exact lookup_of_run refused o ho
  obtain ⟨hsame, hnone⟩ := writeAll_of_exists there
  obtain ⟨hsink, hwritten⟩ := written_run root options first.sink (actsAt later es)
  have hzero : second.written = 0 := hwritten.trans (congrArg List.length hnone)
  refine ⟨hsink.trans hsame, hledger, hzero, ?_⟩
  have hcount := Recorder.written_add_dropped_run (sink root) options d (actsAt now es)
  have hcount' := Recorder.written_add_dropped_run (sink root) options first.sink (actsAt later es)
  calc
    second.dropped = second.written + second.dropped := by rw [hzero, Nat.zero_add]
    _ = offers'.length := hcount'
    _ = offers.length := by simpa using congrArg List.length hlabels
    _ = first.written + first.dropped := hcount.symm

/-- A file of events that is taken a second time, by a new recorder and at another time, leaves the store
as it is, if the first time steps were refused only because something had the names of their files: no
step is written, and as many are dropped as were written and dropped then. It is taken as far as the first
time, to its end or up to the first line that is no text, and all other counts are the same. -/
theorem ingest_again (root : Path) (options : Options) (d : Disk) (bytes : List UInt8)
    (now later : UInt64)
    (refused : Throughout (RefusedOnlyIf root options d fun _ o f =>
      f = .store (stepFile root o).text existsMessage) (actsAt now (eventsIn bytes))) :
    let first := ingest (sink root) now (Recorder.fresh options d) bytes
    let second := ingest (sink root) later (Recorder.fresh options first.1.sink) bytes
    second.1.sink = first.1.sink ∧ second.1.written = 0 ∧
      second.1.dropped = first.1.written + first.1.dropped ∧
      second.2 = first.2.map fun t =>
        { t with stepsWritten := 0, stepsDropped := t.stepsWritten + t.stepsDropped } := by
  intro first second
  have hfirst : first.1 = (Recorder.fresh options d).run (sink root) (actsAt now (eventsIn bytes)) :=
    (ingest_fst (sink root) now (Recorder.fresh options d) bytes).1
  have hsecond : second.1 =
      (Recorder.fresh options first.1.sink).run (sink root) (actsAt later (eventsIn bytes)) :=
    (ingest_fst (sink root) later (Recorder.fresh options first.1.sink) bytes).1
  obtain ⟨hsink, hledger, hwritten, hdropped⟩ := run_again now later (eventsIn bytes) refused
  rw [← hfirst, ← hsecond] at hsink hledger hdropped
  rw [← hfirst, ← hsecond] at hwritten
  have hown : first.2 = first.2.map fun t =>
      { t with
        cases := first.1.ledger.cases
        stepsWritten := first.1.written
        stepsDropped := first.1.dropped } :=
    ingest_snd (sink root) (sink root) now now (Recorder.fresh options d) (Recorder.fresh options d) bytes
  have htally : second.2 = first.2.map fun t =>
      { t with
        cases := second.1.ledger.cases
        stepsWritten := second.1.written
        stepsDropped := second.1.dropped } :=
    ingest_snd (sink root) (sink root) now later (Recorder.fresh options d)
      (Recorder.fresh options first.1.sink) bytes
  refine ⟨hsink, hwritten, hdropped, ?_⟩
  rw [htally, hledger, hwritten, hdropped, hown, Option.map_map, Option.map_map]
  rfl

/-- A case that is started again after its first step, a line that is no event and one that is no text. -/
def restartedCase : List UInt8 :=
  let line (text : String) : List UInt8 := text.toUTF8.toList ++ [0x0A]
  let start := line "\x7b\"kind\":\"case_start\",\"name\":\"t\"\x7d"
  let record := line "\x7b\"kind\":\"record\",\"line\":1,\"column\":0\x7d"
  start ++ record ++ start ++ record ++ line "no event" ++ [0xFF]

theorem ingest_again_restarted :
    let root : Path := ⟨"store"⟩
    let first := ingest (sink root) 0 (Recorder.fresh {} {}) restartedCase
    let second := ingest (sink root) 1 (Recorder.fresh {} first.1.sink) restartedCase
    Throughout (RefusedOnlyIf root {} {} fun _ o f => f = .store (stepFile root o).text existsMessage)
        (actsAt 0 (eventsIn restartedCase)) ∧
      (first.1.written = 1 ∧ first.1.dropped = 1 ∧ first.2 = none) ∧
      second.1.sink = first.1.sink ∧ second.1.written = 0 ∧ second.1.dropped = 2 ∧ second.2 = none := by
  intro root first second
  have refused : Throughout (RefusedOnlyIf root {} {} fun _ o f =>
      f = .store (stepFile root o).text existsMessage) (actsAt 0 (eventsIn restartedCase)) := by
    decide +kernel
  have counts : first.1.written = 1 ∧ first.1.dropped = 1 ∧ first.2 = none := by decide +kernel
  obtain ⟨hw, hd, hend⟩ := counts
  obtain ⟨hs, hw', hd', ht⟩ := ingest_again root {} {} restartedCase 0 1 refused
  exact ⟨refused, ⟨hw, hd, hend⟩, hs, hw', hd'.trans (by rw [hw, hd]), ht.trans (by rw [hend]; rfl)⟩

end Store
end StepTrace
