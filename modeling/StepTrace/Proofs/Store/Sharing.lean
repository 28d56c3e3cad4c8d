import StepTrace.Proofs.Store.Written

/-!
Cases that share a directory. Names become directory names by a map that forgets characters, so different
cases may have one directory, and then their steps lie in it together and get in each other's way. A file
still tells the case that its step was offered under, and a directory that only one case uses holds the
steps of that case alone.
-/
namespace StepTrace.Store

open Recording

variable {root : Path} {options : Options} {d : Disk} {kept : List Offer} {o : Offer}

/-- After a history a store that held no file holds the files of the written steps. -/
theorem holds_run (root : Path) (options : Options) {d : Disk}
    (empty : d.NoFiles (root.location d.cwd)) (h : List Act) :
    Holds root (after root options d h) (written root d (offersOf options h)) := by
  rw [after, (written_run root options d h).1]
  simpa using (Holds.initial empty).run (offersOf options h)

/-- What a history leaves stays whatever comes after. -/
theorem grows_after (root : Path) (options : Options) (d : Disk) (h k : List Act) :
    (after root options d h).Grows (after root options d (h ++ k)) := by
  induction k using List.reverseRecOn with
  | nil => simpa using Disk.Grows.refl _
  | append_singleton k a ih =>
    rw [← List.append_assoc, after_concat]
    cases offerAfter options (h ++ k) a with
    | none => exact ih
    | some o =>
      simp only [sink_fst]
      exact ih.trans (grows_write root _ o)

/-! ### Which steps lie in a directory -/

/-- In a store that was empty every file is that of a step of the history, in the directory that the names
of its case become; so the cases of the steps in one directory have names that become the same. If the
history has only one such case, then all steps there bear its suite and its test. -/
theorem case_of_directory (root : Path) (options : Options) (d : Disk) (h : List Act)
    (empty : d.NoFiles (root.location d.cwd)) (dir : List String) :
    let store := ((Recorder.fresh options d).run (sink root) h).sink
    let offers := offersOf options h
    (∀ name bytes, store.entry? (root.location d.cwd ++ dir ++ [name]) = some (.file bytes) →
        ∃ o ∈ offers, bytes = content o.step ∧
          caseNames o.case = dir ∧
          o.step.suite = suiteSeparator.intercalate o.case.suitePath ∧ o.step.test = o.case.test) ∧
      ((∀ o ∈ offers, ∀ o' ∈ offers, caseNames o.case = dir → caseNames o'.case = dir →
          o.case = o'.case) →
        ∃ suite test, ∀ name bytes,
          store.entry? (root.location d.cwd ++ dir ++ [name]) = some (.file bytes) →
            ∃ s : Step, bytes = content s ∧ s.suite = suite ∧ s.test = test) := by
  intro store offers
  have holds : Holds root store _ := holds_run root options empty h
  have hcwd : store.cwd = d.cwd := by
    simp only [store, (written_run root options d h).1]
    exact (grows_writeAll root d _).cwd_eq
  have files : ∀ name bytes,
      store.entry? (root.location d.cwd ++ dir ++ [name]) = some (.file bytes) →
        ∃ o ∈ offers, bytes = content o.step ∧ caseNames o.case = dir := by
    intro name bytes hf
    have hm := Disk.mem_of_entry?_eq_file hf
    rw [List.append_assoc, ← hcwd, holds.mem_iff] at hm
    obtain ⟨o, ho, hn, hb⟩ := hm
    exact ⟨o, (written_sublist root d offers).subset ho, hb, (List.append_inj' hn rfl).1.symm⟩
  have labels := (Recorder.sink_run (sink root) options d h).2
  refine ⟨fun name bytes hf => ?_, fun one => ?_⟩
  · obtain ⟨o, ho, hb, hd⟩ := files name bytes hf
    exact ⟨o, ho, hb, hd, labels o ho⟩
  · by_cases hex : ∃ o ∈ offers, caseNames o.case = dir
    · obtain ⟨o, ho, hd⟩ := hex
      refine ⟨suiteSeparator.intercalate o.case.suitePath, o.case.test, fun name bytes hf => ?_⟩
      obtain ⟨o', ho', hb, hd'⟩ := files name bytes hf
      obtain ⟨hsuite, htest⟩ := labels o' ho'
      have hcase := one o' ho' o ho hd' hd
      exact ⟨o'.step, hb, hcase ▸ hsuite, hcase ▸ htest⟩
    · refine ⟨"", "", fun name bytes hf => ?_⟩
      obtain ⟨o, ho, -, hd⟩ := files name bytes hf
      exact absurd ⟨o, ho, hd⟩ hex

/-- A record of a probe. -/
def probed : Operation :=
  .record
    { line := 1, column := 0, bindings := .ofReads [], returnPosition := false, file := none,
      ts := some 0 }

theorem case_of_directory_nested :
    let root : Path := ⟨"store"⟩
    let store := ((Recorder.fresh {} ({} : Disk)).run (sink root) mixedHistory).sink
    ({} : Disk).NoFiles (root.location []) ∧ (store.entry? ["store", "S", "t", "2.json"]).isSome ∧
      ∃ suite test, ∀ name bytes,
        store.entry? (root.location [] ++ ["S", "t"] ++ [name]) = some (.file bytes) →
          ∃ s : Step, bytes = content s ∧ s.suite = suite ∧ s.test = test := by
  intro root store
  have empty : ({} : Disk).NoFiles (root.location []) := fun _ _ hm => nomatch hm
  exact ⟨empty, by decide +kernel, (case_of_directory root {} {} mixedHistory empty ["S", "t"]).2
    (by decide +kernel)⟩

/-- What the file at a location says of the suite and the test of its step. -/
def labelsAt? (d : Disk) (l : Location) : Option (String × String) :=
  match d.entry? l with
  | some (.file bytes) =>
    ((String.fromUTF8? bytes).bind Step.ofText?).map fun s => (s.suite, s.test)
  | _ => none

/-- Two cases become one directory: the first step there is of one and the second one of the other. -/
theorem mixed_directory :
    let act (op : Operation) : Act := ⟨0, defaultStream, op⟩
    let h := [act (.startCase "a b" (some ["S"])), act probed, act (.startCase "a_b" (some ["S"])),
      act probed, act probed]
    let store := ((Recorder.fresh {} ({} : Disk)).run (sink ⟨"store"⟩) h).sink
    labelsAt? store ["store", "S", "a_b", "1.json"] = some ("S", "a b") ∧
      labelsAt? store ["store", "S", "a_b", "2.json"] = some ("S", "a_b") := by
  decide +kernel

/-! ### Steps outside all cases -/

/-- A step is written if the steps in the directory of its case have other numbers, and only a file would
stand in its way. -/
theorem Holds.creates (h : Holds root d kept)
    (other : ∀ o' ∈ kept, caseDir root o'.case = caseDir root o.case →
      o'.step.stepNumber ≠ o.step.stepNumber)
    (refused : ∀ x ∈ refusal? root d o, FileInWay root x.1 o) :
    ∃ d', write root d o = (d', .ok (stepFile root o)) := by
  rcases write_eq root d o with ⟨d', hw, -⟩ | ⟨f, hw⟩
  · exact ⟨d', hw⟩
  · have hdirs := Disk.addsDirs_createDirAll d (caseDir root o.case)
    obtain ⟨names, hn, bytes, hf⟩ := refused _ (by simp only [refusal?, hw]; rfl)
    rw [hdirs.cwd_eq, hdirs.entry?_file_iff] at hf
    obtain ⟨o', ho', rfl, -⟩ := (h.mem_iff names bytes).1 (Disk.mem_of_entry?_eq_file hf)
    obtain ⟨hdir, hnumber⟩ := eq_of_stepNames_prefix root ((List.mem_inits _ _).1 hn)
    exact absurd hnumber (other o' ho' hdir)

/-- An act records a step while its stream has no active case. -/
def Idle (past : List Act) (a : Act) : Prop :=
  a.op.isRecord ∧ caseAfter? (pastOf past a.stream) = none

instance (past : List Act) (a : Act) : Decidable (Idle past a) := inferInstanceAs (Decidable (_ ∧ _))

/-- The earlier records in the directory of an act are outside all cases as well, and under the same suite
path. -/
def OwnDirectory (root : Path) (options : Options) (past : List Act) (b : Act) : Prop :=
  ∀ before a between, past = before ++ a :: between → a.op.isRecord →
    caseDir root (keyAfter options (pastOf before a.stream)) =
      caseDir root (keyAfter options (pastOf past b.stream)) →
    Idle before a ∧ livePath options (pastOf before a.stream) = livePath options (pastOf past b.stream)

instance (root : Path) (options : Options) (past : List Act) (b : Act) :
    Decidable (OwnDirectory root options past b) :=
  decidable_of_iff (∀ x ∈ splits past, x.2.1.op.isRecord →
      caseDir root (keyAfter options (pastOf x.1 x.2.1.stream)) =
        caseDir root (keyAfter options (pastOf past b.stream)) →
      Idle x.1 x.2.1 ∧
        livePath options (pastOf x.1 x.2.1.stream) = livePath options (pastOf past b.stream))
    ⟨fun h _ _ _ he => h _ (mem_splits.2 he), fun h _ hx => h _ _ _ (mem_splits.1 hx)⟩

theorem exists_offerAfter (options : Options) (h : List Act) {a : Act} (ha : a.op.isRecord) :
    ∃ o, offerAfter options h a = some o := by
  unfold offerAfter
  cases hop : a.op with
  | record call => exact ⟨_, rfl⟩
  | _ => simp [hop, Operation.isRecord] at ha

/-- A step outside all cases is written if its directory is that of its suite path alone: the numbers of
one suite path go up, whatever streams count under it. -/
theorem write_of_idle {past : List Act} {a : Act} (empty : d.NoFiles (root.location d.cwd))
    (idle : Idle past a) (own : OwnDirectory root options past a)
    (refused : RefusedOnlyIf root options d (fun d' o _ => FileInWay root d' o) past a)
    (ho : offerAfter options past a = some o) :
    ∃ d', write root (after root options d past) o = (d', .ok (stepFile root o)) := by
  refine (holds_run root options empty past).creates (fun o' ho' hdir => ?_) (refused o ho)
  obtain ⟨before, b, between, rfl, hb⟩ :=
    exists_of_mem_offersOf ((written_sublist root d _).subset ho')
  obtain ⟨-, hkey, hnumber⟩ := offerAfter_eq_some ho
  obtain ⟨hrecord, hkey', hnumber'⟩ := offerAfter_eq_some hb
  rw [hkey, hkey'] at hdir
  obtain ⟨⟨-, hnone⟩, hpath⟩ := own before b between rfl hrecord hdir
  have hlt := numberAfter_lt_of_together hrecord (Or.inr ⟨hnone, idle.2, hpath⟩)
  omega

/-- Of a history in a store that was empty no step outside all cases is dropped, if all steps in the
directory of such a step are outside all cases and under its suite path, and only a file stands in its way:
the recorder counts the step as written, and its file holds it from then on. -/
theorem idle_steps_written (root : Path) (options : Options) (d : Disk) (h : List Act)
    (empty : d.NoFiles (root.location d.cwd))
    (own : Throughout (fun past a => Idle past a → OwnDirectory root options past a) h)
    (refused : Throughout (fun past a => Idle past a →
      RefusedOnlyIf root options d (fun d' o _ => FileInWay root d' o) past a) h) :
    ∀ past a rest, h = past ++ a :: rest → Idle past a →
      let before := (Recorder.fresh options d).run (sink root) past
      let next := before.step (sink root) a
      let last := (Recorder.fresh options d).run (sink root) h
      next.dropped = before.dropped ∧ next.written = before.written + 1 ∧
        ∃ o, offerAfter options past a = some o ∧
          last.sink.read (stepFile root o) = .ok (content o.step) := by
  rintro past a rest rfl idle before next last
  have split : past ++ a :: rest = (past ++ [a]) ++ rest := by simp
  rw [split] at own refused
  have hown := (throughout_concat.1 own.of_append).2 idle
  have hrefused := (throughout_concat.1 refused.of_append).2 idle
  obtain ⟨o, ho⟩ := exists_offerAfter options past idle.1
  obtain ⟨d', hw⟩ := write_of_idle empty idle hown hrefused ho
  have hkept : sink root before.sink o = (d', true) := by
    have hsink : before.sink = after root options d past := rfl
    simp [hsink, sink, hw]
  obtain ⟨hwritten, hdropped⟩ := Recorder.step_counts (sink root) before a
  have hoffered : (before.ledger.apply before.options a.now a.stream a.op).2 = some o :=
    (Recorder.offered_run (sink root) options d past a).trans ho
  simp only [hoffered, Option.map_some, hkept, if_true, Option.some.injEq, Bool.true_eq_false, if_false]
    at hwritten hdropped
  refine ⟨hdropped, hwritten, o, ho, ?_⟩
  have hgrows := grows_after root options d (past ++ [a]) rest
  rw [after_concat, ho, ← split] at hgrows
  refine hgrows.read ?_
  have hread := (file_of_write hw).2.2.1
  simpa only [sink_fst, hw] using hread

/-- Two streams record outside all cases under one suite path and under another one that has a directory
of its own; a third one records in a case elsewhere, twice, so that a step of it is dropped. -/
theorem idle_steps_written_streams :
    let root : Path := ⟨"store"⟩
    let h : List Act :=
      [⟨0, "a", .enterSuite "a b"⟩, ⟨0, "a", probed⟩, ⟨0, "b", .enterSuite "a b"⟩,
        ⟨0, "c", .startCase "t" (some ["S"])⟩, ⟨0, "c", probed⟩, ⟨0, "c", .reset⟩, ⟨0, "c", probed⟩,
        ⟨0, "b", probed⟩, ⟨0, "a", .enterSuite "c"⟩, ⟨0, "a", probed⟩]
    let before := (Recorder.fresh {} ({} : Disk)).run (sink root) (h.take 7)
    ({} : Disk).NoFiles (root.location []) ∧
      Throughout (fun past a => Idle past a → OwnDirectory root {} past a) h ∧
      Throughout (fun past a => Idle past a →
        RefusedOnlyIf root {} {} (fun d' o _ => FileInWay root d' o) past a) h ∧
      h = h.take 7 ++ ⟨0, "b", probed⟩ :: h.drop 8 ∧ Idle (h.take 7) ⟨0, "b", probed⟩ ∧
      before.dropped = 1 ∧ (before.step (sink root) ⟨0, "b", probed⟩).dropped = 1 ∧
      (before.step (sink root) ⟨0, "b", probed⟩).written = before.written + 1 := by
  intro root h before
  have empty : ({} : Disk).NoFiles (root.location []) := fun _ _ hm => nomatch hm
  have own : Throughout (fun past a => Idle past a → OwnDirectory root {} past a) h := by decide +kernel
  have refused : Throughout (fun past a => Idle past a →
      RefusedOnlyIf root {} {} (fun d' o _ => FileInWay root d' o) past a) h := by decide +kernel
  have hidle : Idle (h.take 7) ⟨0, "b", probed⟩ := by decide +kernel
  have hdropped : before.dropped = 1 := by decide +kernel
  obtain ⟨hd, hw, -⟩ := idle_steps_written root {} {} h empty own refused (h.take 7) ⟨0, "b", probed⟩
    (h.drop 8) rfl hidle
  exact ⟨empty, own, refused, rfl, hidle, hdropped, hd.trans hdropped, hw⟩

/-- Two suites have one directory and are counted apart: the second of their steps outside all cases finds
the file of the first one and is dropped. -/
theorem idle_step_dropped :
    let root : Path := ⟨"store"⟩
    let act (op : Operation) : Act := ⟨0, defaultStream, op⟩
    let h := [act (.enterSuite "a b"), act probed, act .exitSuite, act (.enterSuite "a_b"), act probed]
    let r := (Recorder.fresh {} ({} : Disk)).run (sink root) h
    Throughout (fun past a => a.op.isRecord → Idle past a) h ∧
      Throughout (RefusedOnlyIf root {} {} fun _ o f => f = .store (stepFile root o).text existsMessage)
        h ∧
      r.written = 1 ∧ r.dropped = 1 := by
  decide +kernel

end StepTrace.Store
