import StepTrace.Proofs.Recording.History
import StepTrace.Proofs.Store.Write

/-!
The steps of a store are numbered without gaps. Several cases may share a directory, and streams count
outside all cases together; every count that is still going on finds the numbers up to its own in its
directory, so the next one leaves no gap there, whether its file is written or was there before.
-/
namespace StepTrace.Store

open Recording

/-- In every directory at or below a place the step numbers are those from one up to some number. -/
def Contiguous (d : Disk) (top : Location) : Prop :=
  ∀ names, ∃ N, stepNumbers d (top ++ names) = Set.Icc 1 N

/-- A directory has all step numbers up to a number, those that are too large to be read apart. -/
def FilledTo (d : Disk) (dir : Location) (n : Nat) : Prop :=
  ∀ m, 1 ≤ m → m ≤ n → m < Nat.pow 2 64 → m ∈ stepNumbers d dir

/-- Suites open or close in a case only if it came with its own suites. -/
def Steady (past : List Act) (a : Act) : Prop :=
  a.op.turnsSuite → ∀ c ∈ caseAfter? (pastOf past a.stream), c.2 ≠ none ∧ c.2 ≠ some []

instance (past : List Act) (a : Act) : Decidable (Steady past a) :=
  inferInstanceAs (Decidable (_ → _))

section Store

variable (root : Path) (options : Options) (d : Disk)

/-- A store after a history. -/
def after (h : List Act) : Disk := ((Recorder.fresh options d).run (sink root) h).sink

/-- The store refuses the step of an act only if something holds of what it is like then, of the step
and of the reason. -/
def RefusedOnlyIf (P : Disk → Offer → Failure → Prop) (past : List Act) (a : Act) : Prop :=
  ∀ o ∈ offerAfter options past a, ∀ x ∈ refusal? root (after root options d past) o, P x.1 o x.2

instance (P : Disk → Offer → Failure → Prop) [∀ d o f, Decidable (P d o f)] (past : List Act)
    (a : Act) : Decidable (RefusedOnlyIf root options d P past a) :=
  inferInstanceAs (Decidable (∀ o ∈ offerAfter options past a,
    ∀ x ∈ refusal? root (after root options d past) o, P x.1 o x.2))

theorem after_concat (h : List Act) (a : Act) :
    after root options d (h ++ [a]) =
      match offerAfter options h a with
      | some o => (sink root (after root options d h) o).1
      | none => after root options d h := by
  have ho := Recorder.offered_run (sink root) options d h a
  cases hoffer : offerAfter options h a <;>
    simp only [after, Recorder.run_concat, Recorder.step_sink, ho, hoffer]

end Store

variable {root : Path} {options : Options} {d d' : Disk} {h : List Act}

theorem FilledTo.mono {dir : Location} {n : Nat} (hf : FilledTo d dir n)
    (hs : stepNumbers d dir ⊆ stepNumbers d' dir) : FilledTo d' dir n :=
  fun m h1 h2 h3 => hs (hf m h1 h2 h3)

theorem FilledTo.zero (d : Disk) (dir : Location) : FilledTo d dir 0 := by
  intro m h1 h2
  omega

theorem FilledTo.succ {dir : Location} {n : Nat} (hf : FilledTo d dir n)
    (hs : n + 1 < Nat.pow 2 64 → n + 1 ∈ stepNumbers d dir) : FilledTo d dir (n + 1) := by
  intro m h1 h2 h3
  rcases Nat.le_succ_iff.1 h2 with h | rfl
  · exact hf m h1 h h3
  · exact hs h3

/-- The next number of a directory that is filled leaves no gap. -/
theorem exists_eq_Icc {s t : Set Nat} {n N : Nat} (hs : s = Set.Icc 1 N)
    (hn : ∀ m, 1 ≤ m → m < n → m ∈ s) (h1 : 1 ≤ n) (ht : ∀ m, m ∈ t ↔ m ∈ s ∨ m = n) :
    ∃ M, t = Set.Icc 1 M := by
  subst hs
  refine ⟨max N n, Set.ext fun m => ?_⟩
  rw [ht]
  simp only [Set.mem_Icc] at *
  constructor
  · omega
  · intro hm
    by_cases h : m < n
    · have := hn m hm.1 h
      omega
    · omega

/-- The case of the next step stays the same while a case goes on. -/
theorem keyAfter_concat (options : Options) {a : Act} (steady : Steady h a)
    (hop : a.op.turnsCase = false) (hc : (caseAfter? (pastOf h a.stream)).isSome) :
    keyAfter options (pastOf h a.stream ++ [a.op]) = keyAfter options (pastOf h a.stream) := by
  obtain ⟨⟨name, path⟩, hcase⟩ := Option.isSome_iff_exists.1 hc
  have hsame : caseAfter? (pastOf h a.stream ++ [a.op]) = some (name, path) := by
    rw [caseAfter?_concat]
    cases hop' : a.op <;> simp_all [Operation.turnsCase]
  by_cases hs : a.op.turnsSuite
  · obtain ⟨hnone, hnil⟩ := steady hs _ hcase
    rcases path with _ | _ | ⟨first, rest⟩
    · contradiction
    · contradiction
    · simp [keyAfter, hsame, hcase]
  · have hsuites : suitesAfter (pastOf h a.stream ++ [a.op]) = suitesAfter (pastOf h a.stream) := by
      rw [suitesAfter_concat]
      cases hop' : a.op <;> simp_all [Operation.turnsSuite]
    simp [keyAfter, livePath, hsame, hcase, hsuites]

/-- A store without files has no gaps, whatever its directories are called. -/
theorem contiguous_of_dirs (hd : ∀ x ∈ d.entries, x.2 = .dir) (top : Location) : Contiguous d top := by
  intro names
  refine ⟨0, Set.ext fun n => ?_⟩
  constructor
  · rintro ⟨name, bytes, hm, -⟩
    cases hd _ hm
  · intro hn
    simp only [Set.mem_Icc] at hn
    omega

/-- What holds of a store after a history: it has no gaps, and every count of the history has filled its
directory. -/
structure Kept (root : Path) (options : Options) (d : Disk) (h : List Act) : Prop where
  contiguous : Contiguous d (root.location d.cwd)
  cases : ∀ id, (caseAfter? (pastOf h id)).isSome →
    FilledTo d (caseLocation d.cwd root (keyAfter options (pastOf h id)))
      (recordsSinceStart (pastOf h id))
  idle : ∀ path, FilledTo d (caseLocation d.cwd root ⟨path, unknownTest⟩)
    (idleRecords options h path)

namespace Kept

theorem initial (start : Contiguous d (root.location d.cwd)) : Kept root options d [] := by
  refine ⟨start, fun id hc => by simp [pastOf, caseAfter?] at hc, fun path m h1 h2 => ?_⟩
  have : idleRecords options [] path = 0 := rfl
  omega

/-- The numbers before that of the next step are there. -/
theorem filled_number (hk : Kept root options d h) {a : Act} {o : Offer}
    (ho : offerAfter options h a = some o) :
    1 ≤ o.step.stepNumber ∧
      FilledTo d (caseLocation d.cwd root o.case) (o.step.stepNumber - 1) := by
  unfold offerAfter at ho
  split at ho
  · cases ho
    simp only [Ledger.stepOf, numberAfter]
    by_cases hc : (caseAfter? (pastOf h a.stream)).isSome
    · simpa [hc] using hk.cases a.stream hc
    · have hn : caseAfter? (pastOf h a.stream) = none := by simpa using hc
      simpa [hc, keyAfter_of_none options hn] using hk.idle (livePath options (pastOf h a.stream))
  · cases ho

/-- What a history keeps it keeps with one more act, if the step of the act is there then and the store
is still without gaps. -/
theorem concat (hk : Kept root options d h) {a : Act} (steady : Steady h a) (hcwd : d'.cwd = d.cwd)
    (grows : ∀ dir, stepNumbers d dir ⊆ stepNumbers d' dir)
    (new : ∀ o ∈ offerAfter options h a, o.step.stepNumber < Nat.pow 2 64 →
      o.step.stepNumber ∈ stepNumbers d' (caseLocation d.cwd root o.case))
    (contiguous : Contiguous d' (root.location d'.cwd)) : Kept root options d' (h ++ [a]) := by
  refine ⟨contiguous, fun id => ?_, fun path => ?_⟩
  · have old : (caseAfter? (pastOf h id)).isSome →
        FilledTo d' (caseLocation d.cwd root (keyAfter options (pastOf h id)))
          (recordsSinceStart (pastOf h id)) := fun hc => (hk.cases id hc).mono (grows _)
    rw [hcwd, pastOf_concat]
    by_cases hid : a.stream = id
    · subst hid
      have key := keyAfter_concat options steady
      rw [if_pos rfl, caseAfter?_concat, recordsSinceStart_concat]
      cases hop : a.op with
      | enterSuite name | exitSuite =>
        intro hc
        rw [← hop, key (by simp [hop, Operation.turnsCase]) hc]
        simpa [hop, Operation.restarts, Operation.isRecord] using old hc
      | startCase name path => exact fun _ => FilledTo.zero d' _
      | endCase => simp
      | reset => exact fun _ => FilledTo.zero d' _
      | record call =>
        intro hc
        rw [← hop, key (by simp [hop, Operation.turnsCase]) hc]
        simp only [hop, Operation.restarts, Operation.isRecord, Bool.false_eq_true, if_false, if_true]
        refine (old hc).succ ?_
        simpa [offerAfter, hop, numberAfter, hc, Ledger.stepOf] using new
    · rw [if_neg hid]
      exact old
  · have old := (hk.idle path).mono (grows _)
    rw [hcwd, idleRecords_concat]
    split
    · next hp =>
      obtain ⟨hr, hc, hp⟩ := idlePath?_eq_some.1 hp
      subst hp
      refine old.succ ?_
      cases hop : a.op with
      | record call =>
        simpa [offerAfter, hop, numberAfter, hc, Ledger.stepOf, keyAfter_of_none options hc] using new
      | _ => simp [hop, Operation.isRecord] at hr
    · exact old

/-- A step that is written, or whose file is there, keeps a store without gaps. -/
theorem contiguous_sink (hk : Kept root options d h) {a : Act} {o : Offer}
    (ho : offerAfter options h a = some o)
    (refused : ∀ x ∈ refusal? root d o, HasFile root x.1 o) :
    Contiguous (sink root d o).1 (root.location d.cwd) := by
  intro names
  obtain ⟨N, hN⟩ := hk.contiguous names
  obtain ⟨h1, hf⟩ := hk.filled_number ho
  by_cases hnew : root.location d.cwd ++ names = caseLocation d.cwd root o.case ∧
      o.step.stepNumber < Nat.pow 2 64
  · apply exists_eq_Icc hN _ h1
    · intro m
      rw [mem_stepNumbers_sink refused]
      grind
    · intro m hm hlt
      rw [hnew.1]
      exact hf m hm (by omega) (by omega)
  · refine ⟨N, Set.ext fun m => ?_⟩
    rw [mem_stepNumbers_sink refused, hN]
    grind

/-- One act keeps a store without gaps. -/
theorem step (hk : Kept root options (after root options d h) h) {a : Act} (steady : Steady h a)
    (refused : RefusedOnlyIf root options d (fun d' o _ => HasFile root d' o) h a) :
    Kept root options (after root options d (h ++ [a])) (h ++ [a]) := by
  rw [after_concat]
  cases ho : offerAfter options h a with
  | none => exact hk.concat steady rfl (fun _ => subset_rfl) (by simp [ho]) hk.contiguous
  | some o =>
    have hmem := mem_stepNumbers_sink (refused o ho)
    apply hk.concat steady (cwd_sink ..)
    · exact fun dir n hn => (hmem dir n).2 (Or.inl hn)
    · intro o' ho' hlt
      obtain rfl : o = o' := by simpa [ho] using ho'
      exact (hmem _ _).2 (Or.inr ⟨rfl, rfl, hlt⟩)
    · rw [cwd_sink]
      exact hk.contiguous_sink ho (refused o ho)

/-- A whole history keeps a store without gaps. -/
theorem run (start : Contiguous d (root.location d.cwd)) (steady : Throughout Steady h)
    (refused : Throughout (RefusedOnlyIf root options d fun d' o _ => HasFile root d' o) h) :
    Kept root options (after root options d h) h := by
  induction h using List.reverseRecOn with
  | nil => exact initial start
  | append_singleton h a ih =>
    obtain ⟨sh, sa⟩ := throughout_concat.1 steady
    obtain ⟨rh, ra⟩ := throughout_concat.1 refused
    exact (ih sh rh).step sa ra

end Kept

/-- A scan finds no gaps in a store that has none. -/
theorem scan_of_contiguous {root : Path} (hd : Contiguous d (root.location d.cwd)) (suiteName : String)
    (hroot : d.isDir root) :
    ∃ report, scan d root suiteName = .ok report ∧
      (∀ c ∈ report.cases, c.contiguous = true ∧ c.missing = []) ∧ report.hasGaps = false := by
  obtain ⟨report, hs, hc⟩ := scan_eq_ok suiteName hroot
  have ok : ∀ c ∈ report.cases, c.contiguous = true ∧ c.missing = [] := by
    intro c hm
    obtain ⟨names, ns, rfl, hl⟩ := hc c hm
    obtain ⟨N, hN⟩ := hd names
    simp [caseReport, gaps_eq_nil (hN ▸ hl)]
  refine ⟨report, hs, ok, ?_⟩
  rw [StoreReport.hasGaps, List.any_eq_false]
  intro c hm
  simp [(ok c hm).1]

/-- A store without gaps is without gaps at every time of a history, if suites open and close in a case
only when it came with its own suites and steps are refused only where their file is; and a scan says
so. -/
theorem contiguous_run (root : Path) (options : Options) (d : Disk) (suiteName : String) (h : List Act)
    (start : Contiguous d (root.location d.cwd)) (steady : Throughout Steady h)
    (refused : Throughout (RefusedOnlyIf root options d fun d' o _ => HasFile root d' o) h) :
    ∀ past, past <+: h →
      let d' := ((Recorder.fresh options d).run (sink root) past).sink
      Contiguous d' (root.location d'.cwd) ∧
        (d'.isDir root → ∃ report, scan d' root suiteName = .ok report ∧
          (∀ c ∈ report.cases, c.contiguous = true ∧ c.missing = []) ∧ report.hasGaps = false) := by
  rintro past ⟨rest, rfl⟩
  have hk := Kept.run start steady.of_append refused.of_append
  exact ⟨hk.contiguous, scan_of_contiguous hk.contiguous suiteName⟩

/-- A case that is started, and probed some times. -/
def probedCase (probes : Nat) : List Act :=
  let call : Call :=
    { line := 1, column := 0, bindings := .ofReads [], returnPosition := false, file := none,
      ts := some 0 }
  (.startCase "t" (some ["S"]) :: List.replicate probes (.record call)).map fun op =>
    ⟨0, defaultStream, op⟩

/-- A case is started twice in an empty store: the first step of the second time is refused, and the
second one is written. -/
theorem contiguous_run_repeated_case :
    let root : Path := ⟨"store"⟩
    let h := probedCase 1 ++ probedCase 2
    let d' := ((Recorder.fresh {} {}).run (sink root) h).sink
    Contiguous {} (root.location []) ∧ Throughout Steady h ∧
      Throughout (RefusedOnlyIf root {} {} fun d' o _ => HasFile root d' o) h ∧
      h <+: h ∧ d'.isDir root ∧ Contiguous d' (root.location d'.cwd) ∧
      ∃ report, scan d' root noSuite = .ok report ∧
        (∀ c ∈ report.cases, c.contiguous = true ∧ c.missing = []) ∧ report.hasGaps = false := by
  intro root h d'
  have start : Contiguous {} (root.location []) := contiguous_of_dirs (by simp) _
  have steady : Throughout Steady h := by decide +kernel
  have refused : Throughout (RefusedOnlyIf root {} {} fun d' o _ => HasFile root d' o) h := by
    decide +kernel
  have hroot : d'.isDir root := by decide +kernel
  obtain ⟨hc, hs⟩ := contiguous_run root {} {} noSuite h start steady refused h List.prefix_rfl
  exact ⟨start, steady, refused, List.prefix_rfl, hroot, hc, hs hroot⟩

/-- A directory that is named like the file of a step stands in its way just as the file would, and is
not counted: the third of four steps is refused as one that exists already, and a scan misses it. -/
theorem gap_of_directory :
    let root : Path := ⟨"store"⟩
    let dirs : List Location :=
      [["store"], ["store", "S"], ["store", "S", "t"], ["store", "S", "t", "3.json"]]
    let d : Disk := { entries := dirs.map (·, .dir) }
    let h := probedCase 4
    let d' := ((Recorder.fresh {} d).run (sink root) h).sink
    Contiguous d (root.location d.cwd) ∧ Throughout Steady h ∧
      Throughout (RefusedOnlyIf root {} d fun _ o f => f = .store (stepFile root o).text existsMessage)
        h ∧
      ¬Contiguous d' (root.location d'.cwd) ∧
      ∃ report, scan d' root noSuite = .ok report ∧ report.hasGaps = true := by
  intro root dirs d h d'
  have start : Contiguous d (root.location d.cwd) := contiguous_of_dirs (by simp [d, dirs]) _
  have hroot : d'.isDir root := by decide +kernel
  obtain ⟨report, hs, -⟩ := scan_eq_ok noSuite hroot
  have hg : report.hasGaps = true := by
    have hall : ((scan d' root noSuite).toOption.all StoreReport.hasGaps) = true := by
      decide +kernel
    simpa [hs, Except.toOption] using hall
  refine ⟨start, by decide +kernel, by decide +kernel, fun hc => ?_, report, hs, hg⟩
  obtain ⟨report', hs', -, hg'⟩ := scan_of_contiguous hc noSuite hroot
  rw [hs] at hs'
  cases hs'
  rw [hg] at hg'
  cases hg'

end StepTrace.Store
