import Mathlib.Algebra.BigOperators.Group.List.Lemmas
import StepTrace.Proofs.Recording.Lines
import StepTrace.Proofs.Store.Written

/-!
A scan tells what was written. The writer makes directories out of suites and tests and files out of step
numbers; the scan finds these directories again, each once, and in each the numbers of the steps that were
written there.
-/
namespace StepTrace

namespace Recording

/-- The steps of a stream are not numbered higher than there are acts before the next one. -/
theorem numberAfter_le (options : Options) (h : List Act) (stream : String) :
    numberAfter options h stream ≤ h.length + 1 := by
  have hops : (pastOf h stream).length ≤ h.length := by
    simpa [pastOf] using List.length_filter_le (fun a => decide (a.stream = stream)) h
  have heach : ∀ past rest : List Act,
      (eachFrom (fun past a => idlePath? options (pastOf past a.stream) a.op) past rest).length =
        rest.length := by
    intro past rest
    induction rest generalizing past with
    | nil => rfl
    | cons a rest ih => simp [eachFrom, ih]
  have hstarted : recordsSinceStart (pastOf h stream) ≤ (pastOf h stream).length := by
    refine List.countP_le_length.trans ((List.takeWhile_sublist _).length_le.trans ?_)
    rw [List.length_reverse]
  have hidle : ∀ path, idleRecords options h path ≤ h.length := fun path => by
    simpa [idleRecords, heach] using List.count_le_length (a := some path)
      (l := eachFrom (fun past a => idlePath? options (pastOf past a.stream) a.op) [] h)
  simp only [numberAfter]
  split
  · omega
  · have := hidle (livePath options (pastOf h stream))
    omega

/-- No step of a history has a number beyond the length of that history. -/
theorem stepNumber_le_of_mem_offersOf {options : Options} {h : List Act} {o : Offer}
    (ho : o ∈ offersOf options h) : o.step.stepNumber ≤ h.length := by
  obtain ⟨before, a, between, rfl, hb⟩ := exists_of_mem_offersOf ho
  have hn := numberAfter_le options before a.stream
  rw [(offerAfter_eq_some hb).2.2, List.length_append, List.length_cons]
  omega

end Recording

namespace Store

open Recording

/-! ### Directories as a report shows them -/

/-- The path of the directory of a case below the root of a store. -/
def casePath (key : CaseKey) : String := "/".intercalate (caseNames key)

/-- Names without slashes can be told from what is shown of them. -/
theorem intercalate_inj {names names' : List String} (hne : names ≠ []) (hne' : names' ≠ [])
    (h : ∀ s ∈ names ++ names', '/' ∉ s.toList)
    (he : "/".intercalate names = "/".intercalate names') : names = names' := by
  have parts : ∀ l : List String, l ≠ [] → (∀ s ∈ l, '/' ∉ s.toList) →
      ("/".intercalate l).toList.splitOn '/' = l.map String.toList := by
    intro l hl hs
    rw [String.toList_intercalate]
    exact List.splitOn_intercalate '/' (by simpa using hs) (by simpa using hl)
  have hl : names.map String.toList = names'.map String.toList := by
    rw [← parts names hne fun s hs => h s (List.mem_append_left _ hs), he,
      parts names' hne' fun s hs => h s (List.mem_append_right _ hs)]
  exact List.map_injective_iff.2 (fun _ _ => String.toList_injective) hl

/-- Cases are shown alike if the names of their directories are the same, and only then. -/
theorem casePath_eq_iff {k₁ k₂ : CaseKey} : casePath k₁ = casePath k₂ ↔ caseNames k₁ = caseNames k₂ := by
  refine ⟨intercalate_inj (by simp [caseNames]) (by simp [caseNames]) ?_, congrArg _⟩
  intro s hs
  simp only [caseNames, ← List.map_append, List.mem_map] at hs
  obtain ⟨name, -, rfl⟩ := hs
  exact (isName_segment name).no_slash

/-! ### Reports -/

/-- A report on a store says of the given steps which directories they are in, each once, how many there
are in each, and which numbers are missing below the largest. -/
structure Tells (root : Path) (report : StoreReport) (kept : List Offer) : Prop where
  once : (report.cases.map CaseReport.path).Nodup
  listed : ∀ path, path ∈ report.cases.map CaseReport.path ↔ ∃ o ∈ kept, path = casePath o.case
  numbers : ∀ c ∈ report.cases, ∀ o ∈ kept, c.path = casePath o.case →
    let own := (kept.filter fun o' => caseDir root o'.case = caseDir root o.case).map
      fun o' => o'.step.stepNumber
    c.steps = own.length ∧ c.missing.Pairwise (· < ·) ∧
      ∀ n, n ∈ c.missing ↔ 1 ≤ n ∧ n ∉ own ∧ ∃ m ∈ own, n < m
  total : report.totalSteps = kept.length

/-- The numbers of the steps in the directory with the given names. -/
def numbersOf (kept : List Offer) (names : List String) : List Nat :=
  (kept.filter fun o => caseNames o.case = names).map fun o => o.step.stepNumber

theorem mem_numbersOf {kept : List Offer} {names : List String} {n : Nat} :
    n ∈ numbersOf kept names ↔ ∃ o ∈ kept, caseNames o.case = names ∧ o.step.stepNumber = n := by
  simp [numbersOf, and_assoc]

/-- The values that a function takes on a list, each as often as it is taken. -/
theorem sum_countP_eq_length {α β : Type} [DecidableEq β] (f : α → β) {l : List α} {values : List β}
    (distinct : values.Nodup) (mem_iff : ∀ b, b ∈ values ↔ ∃ a ∈ l, f a = b) :
    (values.map fun b => l.countP fun a => f a = b).sum = l.length := by
  have hperm : values.Perm (l.map f).dedup := by
    refine (List.perm_ext_iff_of_nodup distinct (List.nodup_dedup _)).2 fun b => ?_
    rw [mem_iff, List.mem_dedup, List.mem_map]
  have hcount : ∀ b, (l.map f).count b = l.countP fun a => f a = b := by
    intro b
    rw [List.count_eq_countP, List.countP_map]
    rfl
  calc (values.map fun b => l.countP fun a => f a = b).sum
      = (values.map fun b => (l.map f).count b).sum := by simp only [hcount]
    _ = ((l.map f).dedup.map fun b => (l.map f).count b).sum := (hperm.map _).sum_eq
    _ = (l.map f).length := List.sum_map_count_dedup_eq_length _
    _ = l.length := List.length_map _

namespace Holds

variable {root : Path} {d : Disk} {kept : List Offer}

/-- Steps in one directory have different numbers, as each has a file of its own. -/
theorem nodup_numbersOf (h : Holds root d kept) (names : List String) :
    (numbersOf kept names).Nodup := by
  refine List.Nodup.map_on (fun o ho o' ho' hn => ?_) (h.nodup.of_map.filter _)
  obtain ⟨hm, hd⟩ := List.mem_filter.1 ho
  obtain ⟨hm', hd'⟩ := List.mem_filter.1 ho'
  have hnames : caseNames o.case = caseNames o'.case := by
    rw [of_decide_eq_true hd, of_decide_eq_true hd']
  exact List.inj_on_of_nodup_map h.nodup hm hm' (stepNames_inj.2 ⟨hnames, hn⟩)

/-- The numbers that a directory lists are those of its steps. -/
theorem perm_numbersOf (h : Holds root d kept)
    (small : ∀ o ∈ kept, o.step.stepNumber < Nat.pow 2 64) {names : List String} {ns : List Nat}
    (hl : Lists ns (stepNumbers d (root.location d.cwd ++ names))) : ns.Perm (numbersOf kept names) := by
  refine (List.perm_ext_iff_of_nodup hl.ascending.nodup (h.nodup_numbersOf names)).2 fun n => ?_
  rw [hl.mem_iff, h.stepNumbers_eq small, mem_numbersOf]
  rfl

/-- A scan tells the steps that a store keeps. -/
theorem tells (h : Holds root d kept) (small : ∀ o ∈ kept, o.step.stepNumber < Nat.pow 2 64)
    (suiteName : String) (hd : d.isDir root) :
    ∃ report, scan d root suiteName = .ok report ∧ Tells root report kept := by
  obtain ⟨groups, distinct, nonempty, lists, hs⟩ := scan_eq suiteName hd
  have keys : ∀ names, names ∈ groups.keys ↔ ∃ o ∈ kept, caseNames o.case = names := by
    intro names
    rw [nonempty, h.stepNumbers_eq small]
    simp
  have paths : (groups.map fun g => caseReport suiteName g.1 g.2).map CaseReport.path =
      groups.keys.map fun names => "/".intercalate names := by
    simp [Keyed.keys, caseReport]
  refine ⟨_, hs, ?_, fun path => ?_, fun c hc o ho hpath => ?_, ?_⟩
  · rw [paths]
    refine List.Nodup.map_on (fun names hn names' hn' he => ?_) distinct
    obtain ⟨o, -, rfl⟩ := (keys names).1 hn
    obtain ⟨o', -, rfl⟩ := (keys names').1 hn'
    exact casePath_eq_iff.1 he
  · rw [paths, List.mem_map]
    constructor
    · rintro ⟨names, hn, rfl⟩
      obtain ⟨o, ho, rfl⟩ := (keys names).1 hn
      exact ⟨o, ho, rfl⟩
    · rintro ⟨o, ho, rfl⟩
      exact ⟨_, (keys _).2 ⟨o, ho, rfl⟩, rfl⟩
  · obtain ⟨g, hg, rfl⟩ := List.mem_map.1 hc
    obtain ⟨o', -, ho'⟩ := (keys g.1).1 (List.mem_map.2 ⟨g, hg, rfl⟩)
    have hnames : caseNames o.case = g.1 := by
      rw [← ho']
      refine (casePath_eq_iff.1 ?_).symm
      rw [← hpath, casePath, ho']
      rfl
    intro own
    have hown : own = numbersOf kept g.1 := by
      simp only [own, numbersOf, caseDir_eq_iff, hnames]
    have hperm := h.perm_numbersOf small (lists g hg)
    rw [← hown] at hperm
    refine ⟨hperm.length_eq, pairwise_gaps (lists g hg).ascending, fun n => ?_⟩
    simp only [caseReport, ← hperm.mem_iff]
    exact mem_gaps (lists g hg).ascending
  · have hlength : ∀ g ∈ groups, g.2.length = kept.countP fun o => caseNames o.case = g.1 := by
      intro g hg
      rw [(h.perm_numbersOf small (lists g hg)).length_eq, numbersOf, List.length_map,
        List.countP_eq_length_filter]
    have hsum := sum_countP_eq_length (fun o : Offer => caseNames o.case) distinct keys
    rw [Keyed.keys, List.map_map] at hsum
    exact (congrArg List.sum (List.map_congr_left hlength)).trans hsum

end Holds

/-- Writes below a root that held no file, at least one of which succeeds, are told by a scan, if the path
of the root is not empty: the directories of the written steps and no others, each once, with the number of
steps that were written there and the numbers that are missing; and all steps together are those that were
written. So after a file of events a scan counts as many steps as the recorder. -/
theorem scan_of_written (root : Path) (suiteName : String) (d : Disk) (named : root.text ≠ "")
    (empty : d.NoFiles (root.location d.cwd)) :
    (∀ os, (∀ o ∈ os, o.step.stepNumber < Nat.pow 2 64) → written root d os ≠ [] →
        ∃ report, scan (writeAll root d os) root suiteName = .ok report ∧
          Tells root report (written root d os)) ∧
      ∀ options now bytes, bytes.length < Nat.pow 2 64 →
        let run := ingest (sink root) now (Recorder.fresh options d) bytes
        0 < run.1.written → ∃ report, scan run.1.sink root suiteName = .ok report ∧
          report.totalSteps = run.1.written ∧ ∀ t ∈ run.2, t.stepsWritten = report.totalSteps := by
  have writes : ∀ os, (∀ o ∈ os, o.step.stepNumber < Nat.pow 2 64) → written root d os ≠ [] →
      ∃ report, scan (writeAll root d os) root suiteName = .ok report ∧
        Tells root report (written root d os) := by
    intro os small hne
    have holds := (Holds.initial empty).run os
    rw [List.nil_append] at holds
    exact holds.tells (fun o ho => small o ((written_sublist root d os).subset ho)) suiteName
      (isDir_of_written named hne)
  refine ⟨writes, ?_⟩
  intro options now bytes hbytes run hpos
  obtain ⟨h, hlength, hrun, htally⟩ := ingest_eq_run (sink root) now (Recorder.fresh options d) bytes
  obtain ⟨hsink, hwritten⟩ := written_run root options d h
  have small : ∀ o ∈ offersOf options h, o.step.stepNumber < Nat.pow 2 64 := fun o ho =>
    ((stepNumber_le_of_mem_offersOf ho).trans hlength).trans_lt hbytes
  simp only [run, hrun, hwritten, hsink] at hpos ⊢
  obtain ⟨report, hscan, htells⟩ := writes _ small (List.length_pos_iff.1 hpos)
  refine ⟨report, hscan, htells.total, fun t ht => ?_⟩
  rw [(htally t ht).1, hwritten, htells.total]
  rfl

/-- A case is started again after the steps of the mixed history, so its step is refused; and a file of
two events writes one step. -/
theorem scan_of_written_mixed :
    let root : Path := ⟨"store"⟩
    let os := offersOf {} (mixedHistory ++ probedCase 1)
    let bytes := ("\x7b\"kind\":\"case_start\",\"name\":\"t\"\x7d\n" ++
      "\x7b\"kind\":\"record\",\"line\":1,\"column\":0,\"ts\":1\x7d\n").toUTF8.toList
    let run := ingest (sink root) 0 (Recorder.fresh {} ({} : Disk)) bytes
    root.text ≠ "" ∧ ({} : Disk).NoFiles (root.location []) ∧
      (∀ o ∈ os, o.step.stepNumber < Nat.pow 2 64) ∧ os.length = 6 ∧ (written root {} os).length = 5 ∧
      (∃ report, scan (writeAll root {} os) root noSuite = .ok report ∧
        Tells root report (written root {} os) ∧ report.totalSteps = 5) ∧
      bytes.length < Nat.pow 2 64 ∧ 0 < run.1.written ∧
      ∃ report, scan run.1.sink root noSuite = .ok report ∧ report.totalSteps = run.1.written := by
  intro root os bytes run
  have named : root.text ≠ "" := by decide
  have empty : ({} : Disk).NoFiles (root.location []) := fun _ _ hm => nomatch hm
  have small : ∀ o ∈ os, o.step.stepNumber < Nat.pow 2 64 := by decide +kernel
  have hlength : (written root {} os).length = 5 := by decide +kernel
  have hbytes : bytes.length < Nat.pow 2 64 := by decide +kernel
  have hpos : 0 < run.1.written := by decide +kernel
  obtain ⟨writes, events⟩ := scan_of_written root noSuite {} named empty
  obtain ⟨report, hs, ht⟩ := writes os small (List.ne_nil_of_length_eq_add_one hlength)
  obtain ⟨report', hs', ht', -⟩ := events {} 0 bytes hbytes hpos
  exact ⟨named, empty, small, by decide +kernel, hlength, ⟨report, hs, ht, ht.total.trans hlength⟩, hbytes,
    hpos, report', hs', ht'⟩

/-- The empty path leads the writer below the working directory and the scan nowhere. -/
theorem not_scan_of_empty_path :
    let root : Path := ⟨""⟩
    let os := offersOf {} (probedCase 1)
    ({} : Disk).NoFiles (root.location []) ∧ (written root {} os).length = 1 ∧
      scan (writeAll root {} os) root noSuite = .error (.store "" "store directory does not exist") := by
  exact ⟨fun _ _ hm => (nomatch hm), by decide +kernel, rfl⟩

end Store
end StepTrace
