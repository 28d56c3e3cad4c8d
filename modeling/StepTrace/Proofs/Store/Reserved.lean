import StepTrace.Proofs.Store.Inventory
import StepTrace.Proofs.Store.Sharing

/-!
Which directories a scan passes over. Steps outside all suites or cases have directories of their own, and a
scan tells these by their names. It finds all of them; but a declared case has such a directory too if its
name, or that of its first suite, becomes the same directory name.
-/
namespace StepTrace.Store

open Recording

/-- An act comes outside all cases, or in one that came without suites while no suite is open. -/
def Undeclared (past : List Act) (a : Act) : Prop :=
  ∀ c ∈ caseAfter? (pastOf past a.stream), c.2.getD [] = [] ∧ suitesAfter (pastOf past a.stream) = []

instance (past : List Act) (a : Act) : Decidable (Undeclared past a) :=
  inferInstanceAs (Decidable (∀ _ ∈ _, _))

/-- The names of a case lead to a directory for steps outside all suites or cases. -/
def InReserved (suiteName : String) (key : CaseKey) : Prop :=
  key.suitePath.head?.map segment = some (segment suiteName) ∨ segment key.test = segment unknownTest

instance (suiteName : String) (key : CaseKey) : Decidable (InReserved suiteName key) :=
  inferInstanceAs (Decidable (_ ∨ _))

theorem keyAfter_suitePath_ne_nil (options : Options) (ops : List Operation) :
    (keyAfter options ops).suitePath ≠ [] := by
  have hlive : livePath options ops ≠ [] := by
    unfold livePath
    split
    · simp
    · next h => exact h
  unfold keyAfter
  split
  · simp
  · exact hlive
  · exact hlive

/-- An undeclared act has a reserved case. -/
theorem inReserved_of_undeclared {options : Options} {past : List Act} {a : Act}
    (h : Undeclared past a) : InReserved options.suiteName (keyAfter options (pastOf past a.stream)) := by
  cases hc : caseAfter? (pastOf past a.stream) with
  | none => exact .inr (by rw [keyAfter_of_none options hc])
  | some c =>
    obtain ⟨name, path⟩ := c
    obtain ⟨hpath, hsuites⟩ := h _ hc
    left
    rcases path with _ | _ | ⟨first, rest⟩
    · simp [keyAfter, hc, livePath, hsuites]
    · simp [keyAfter, hc, livePath, hsuites]
    · simp at hpath

/-- A directory is reported as reserved if the names of its cases are. -/
theorem reserved_caseReport (suiteName : String) (ns : List Nat) {key : CaseKey}
    (hne : key.suitePath ≠ []) :
    (caseReport suiteName (caseNames key) ns).reserved = true ↔ InReserved suiteName key := by
  obtain ⟨first, rest, hpath⟩ := List.exists_cons_of_ne_nil hne
  simp [caseReport, caseNames, InReserved, hpath, List.getLast?_cons]

theorem inReserved_congr {suiteName : String} {k₁ k₂ : CaseKey} (h₁ : k₁.suitePath ≠ [])
    (h₂ : k₂.suitePath ≠ []) (h : caseNames k₁ = caseNames k₂) :
    InReserved suiteName k₁ ↔ InReserved suiteName k₂ := by
  rw [← reserved_caseReport suiteName [] h₁, h, reserved_caseReport suiteName [] h₂]

/-! ### The acts that write -/

variable {root : Path} {options : Options} {d : Disk} {h : List Act}

/-- An act of a history writes a step; `past` is what came before it. -/
structure Writes (root : Path) (options : Options) (d : Disk) (h past : List Act) (a : Act) (o : Offer) :
    Prop where
  isPrefix : past ++ [a] <+: h
  offered : offerAfter options past a = some o
  kept : (sink root (after root options d past) o).2 = true

theorem Writes.case_eq {past : List Act} {a : Act} {o : Offer} (w : Writes root options d h past a o) :
    o.case = keyAfter options (pastOf past a.stream) :=
  (offerAfter_eq_some w.offered).2.1

theorem Writes.suitePath_ne_nil {past : List Act} {a : Act} {o : Offer}
    (w : Writes root options d h past a o) : o.case.suitePath ≠ [] := by
  rw [w.case_eq]
  exact keyAfter_suitePath_ne_nil options _

/-- The steps that a store keeps are those that some act writes. -/
theorem mem_written_iff {o : Offer} :
    o ∈ written root d (offersOf options h) ↔ ∃ past a, Writes root options d h past a o := by
  induction h using List.reverseRecOn with
  | nil =>
    constructor
    · intro ho
      simp [offersOf, eachFrom, written] at ho
    · rintro ⟨past, a, hp, -, -⟩
      simp at hp
  | append_singleton h b ih =>
    have hafter : writeAll root d (offersOf options h) = after root options d h :=
      (written_run root options d h).1.symm
    rw [offersOf_concat, written_append, List.mem_append, ih, hafter]
    constructor
    · rintro (⟨past, a, hp, ho, hk⟩ | hnew)
      · exact ⟨past, a, hp.trans (List.prefix_append _ _), ho, hk⟩
      · cases hb : offerAfter options h b with
        | none => simp [hb, written] at hnew
        | some o' =>
          rw [hb, Option.toList_some, written_singleton] at hnew
          split at hnew
          · next hk =>
            obtain rfl := List.mem_singleton.1 hnew
            exact ⟨h, b, List.prefix_rfl, hb, hk⟩
          · cases hnew
    · rintro ⟨past, a, hp, ho, hk⟩
      rcases List.prefix_concat_iff.1 hp with he | hp
      · obtain ⟨rfl, hb⟩ := List.append_inj' he rfl
        obtain rfl := List.singleton_inj.1 hb
        exact .inr (by simp [ho, written_singleton, hk])
      · exact .inl ⟨past, a, hp, ho, hk⟩

/-- The numbers of the steps that a history writes into the directory with the given path. -/
def numbersAt (root : Path) (options : Options) (d : Disk) (h : List Act) (path : String) : Set Nat :=
  {n | ∃ past a o, Writes root options d h past a o ∧ casePath o.case = path ∧ o.step.stepNumber = n}

/-- Below a number that a file name can stand for, one is missing. -/
def Gap (numbers : Set Nat) : Prop :=
  ∃ m ∈ numbers, m < Nat.pow 2 64 ∧ ∃ n, 1 ≤ n ∧ n < m ∧ n ∉ numbers

theorem mem_numbersAt {key : CaseKey} {n : Nat} :
    n ∈ numbersAt root options d h (casePath key) ↔
      n ∈ numbersOf (written root d (offersOf options h)) (caseNames key) := by
  simp only [numbersAt, Set.mem_ofPred_eq, mem_numbersOf, mem_written_iff, casePath_eq_iff]
  grind

/-- A report is that on a directory that holds the step of a case, under the numbers that are there. -/
def Reports (suiteName : String) (d : Disk) (root : Path) (key : CaseKey) (c : CaseReport) : Prop :=
  ∃ ns, c = caseReport suiteName (caseNames key) ns ∧
    Lists ns (stepNumbers d (root.location d.cwd ++ caseNames key))

/-- A scan reports the directories of the steps that a history has written. -/
theorem exists_report (empty : d.NoFiles (root.location d.cwd)) (suiteName : String)
    (hroot : (after root options d h).isDir root) :
    ∃ report, scan (after root options d h) root suiteName = .ok report ∧
      (∀ c ∈ report.cases, ∃ past a o, Writes root options d h past a o ∧
        Reports suiteName (after root options d h) root o.case c) ∧
      ∀ key, ∀ n ∈ numbersAt root options d h (casePath key), n < Nat.pow 2 64 →
        ∃ c ∈ report.cases, Reports suiteName (after root options d h) root key c := by
  have holds := holds_run root options empty h
  obtain ⟨groups, -, nonempty, lists, hscan⟩ := scan_eq suiteName hroot
  refine ⟨_, hscan, fun c hc => ?_, fun key n hn hsmall => ?_⟩
  · obtain ⟨⟨names, ns⟩, hg, rfl⟩ := List.mem_map.1 hc
    obtain ⟨n, hn⟩ := (nonempty names).1 (List.mem_map.2 ⟨_, hg, rfl⟩)
    obtain ⟨-, o, ho, rfl, -⟩ := holds.mem_stepNumbers.1 hn
    obtain ⟨past, a, w⟩ := mem_written_iff.1 ho
    exact ⟨past, a, o, w, ns, rfl, lists _ hg⟩
  · have hmem := holds.mem_stepNumbers.2 ⟨hsmall, mem_numbersOf.1 (mem_numbersAt.1 hn)⟩
    obtain ⟨⟨names, ns⟩, hg, hnames⟩ := List.mem_map.1 ((nonempty _).2 ⟨n, hmem⟩)
    obtain rfl : names = caseNames key := hnames
    exact ⟨_, List.mem_map.2 ⟨_, hg, rfl⟩, ns, rfl, lists _ hg⟩

namespace Reports

variable {suiteName : String} {key : CaseKey} {c : CaseReport}

theorem path_eq {store : Disk} (hc : Reports suiteName store root key c) : c.path = casePath key := by
  obtain ⟨ns, rfl, -⟩ := hc
  rfl

/-- A directory is reported as reserved if the names of its cases are. -/
theorem reserved_iff {store : Disk} (hc : Reports suiteName store root key c)
    (hne : key.suitePath ≠ []) : c.reserved = true ↔ InReserved suiteName key := by
  obtain ⟨ns, rfl, -⟩ := hc
  exact reserved_caseReport suiteName ns hne

/-- It is reported as one with gaps if a number is missing there. -/
theorem not_contiguous_iff (empty : d.NoFiles (root.location d.cwd))
    (hc : Reports suiteName (after root options d h) root key c) :
    c.contiguous = false ↔ Gap (numbersAt root options d h (casePath key)) := by
  obtain ⟨ns, rfl, lists⟩ := hc
  have hns (n : Nat) : n ∈ ns ↔ n < Nat.pow 2 64 ∧ n ∈ numbersAt root options d h (casePath key) := by
    rw [lists.mem_iff, (holds_run root options empty h).mem_stepNumbers, mem_numbersAt, mem_numbersOf]
  simp only [caseReport, List.isEmpty_eq_false_iff_exists_mem, mem_gaps lists.ascending, hns, Gap]
  constructor
  · rintro ⟨n, h1, hn, m, ⟨hm, hmem⟩, hlt⟩
    exact ⟨m, hmem, hm, n, h1, hlt, fun hnot => hn ⟨hlt.trans hm, hnot⟩⟩
  · rintro ⟨m, hmem, hm, n, h1, hlt, hn⟩
    exact ⟨n, h1, fun hnot => hn hnot.2, m, ⟨hm, hmem⟩, hlt⟩

end Reports

/-- A scan with the recorder's name for steps outside all suites finds the directories of all of these and
passes over them. Of the others it passes over just those of which a declared case, in spite of that, has
the names of a reserved directory; so it finds the gaps in the directory of every other declared case. -/
theorem reserved_of_scan (root : Path) (options : Options) (d : Disk) (h : List Act)
    (empty : d.NoFiles (root.location d.cwd)) :
    let store := ((Recorder.fresh options d).run (sink root) h).sink
    store.isDir root → ∃ report, scan store root options.suiteName = .ok report ∧
      (∀ c ∈ report.cases, c.reserved = true ↔
        (∀ past a o, Writes root options d h past a o → casePath o.case = c.path →
          Undeclared past a) ∨
        ∃ past a o, Writes root options d h past a o ∧ casePath o.case = c.path ∧
          ¬ Undeclared past a ∧ InReserved options.suiteName o.case) ∧
      (report.hasGaps = true ↔ ∃ past a o, Writes root options d h past a o ∧
        ¬ Undeclared past a ∧ ¬ InReserved options.suiteName o.case ∧
        Gap (numbersAt root options d h (casePath o.case))) := by
  intro store hroot
  obtain ⟨report, hscan, hwritten, hlisted⟩ := exists_report empty options.suiteName hroot
  have hreserved {past : List Act} {a : Act} {o : Offer} (w : Writes root options d h past a o)
      (hu : Undeclared past a) : InReserved options.suiteName o.case := by
    rw [w.case_eq]
    exact inReserved_of_undeclared hu
  refine ⟨report, hscan, fun c hc => ?_, ?_⟩
  · obtain ⟨past, a, o, w, hreport⟩ := hwritten c hc
    have hsame {past' : List Act} {a' : Act} {o' : Offer} (w' : Writes root options d h past' a' o')
        (hpath : casePath o'.case = casePath o.case) :
        InReserved options.suiteName o'.case ↔ InReserved options.suiteName o.case :=
      inReserved_congr w'.suitePath_ne_nil w.suitePath_ne_nil (casePath_eq_iff.1 hpath)
    rw [hreport.reserved_iff w.suitePath_ne_nil, hreport.path_eq]
    constructor
    · intro hin
      by_cases hall : ∀ past a o', Writes root options d h past a o' → casePath o'.case = casePath o.case →
          Undeclared past a
      · exact .inl hall
      · push Not at hall
        obtain ⟨past', a', o', w', hpath, hdeclared⟩ := hall
        exact .inr ⟨past', a', o', w', hpath, hdeclared, (hsame w' hpath).2 hin⟩
    · rintro (hall | ⟨past', a', o', w', hpath, -, hin⟩)
      · exact hreserved w (hall past a o w rfl)
      · exact (hsame w' hpath).1 hin
  · simp only [StoreReport.hasGaps, List.any_eq_true, Bool.and_eq_true, Bool.not_eq_true']
    constructor
    · rintro ⟨c, hc, hr, hgap⟩
      obtain ⟨past, a, o, w, hreport⟩ := hwritten c hc
      rw [← Bool.not_eq_true, hreport.reserved_iff w.suitePath_ne_nil] at hr
      exact ⟨past, a, o, w, fun hu => hr (hreserved w hu), hr, (hreport.not_contiguous_iff empty).1 hgap⟩
    · rintro ⟨past, a, o, w, -, hin, hgap⟩
      obtain ⟨m, hm, hsmall, -⟩ := id hgap
      obtain ⟨c, hc, hreport⟩ := hlisted o.case m hm hsmall
      refine ⟨c, hc, ?_, (hreport.not_contiguous_iff empty).2 hgap⟩
      rwa [← Bool.not_eq_true, hreport.reserved_iff w.suitePath_ne_nil]

/-- A case that is declared in a suite, and another suite that is open while it takes its second step. -/
def interruptedCase (test : String) : List Act :=
  [.enterSuite "Math", .startCase test none, probed, .enterSuite "x", probed, .exitSuite, probed].map
    fun op => ⟨0, defaultStream, op⟩

/-- The second number is missing where the first and the third are. -/
theorem gap_of_numbersOf {key : CaseKey}
    (hn : numbersOf (written root d (offersOf options h)) (caseNames key) = [1, 3]) :
    3 ∈ numbersAt root options d h (casePath key) ∧ Gap (numbersAt root options d h (casePath key)) := by
  have hthird : 3 ∈ numbersAt root options d h (casePath key) := mem_numbersAt.2 (by rw [hn]; decide)
  exact ⟨hthird, 3, hthird, by decide, 2, by decide, by decide,
    fun hm => absurd (mem_numbersAt.1 hm) (by rw [hn]; decide)⟩

theorem reserved_of_scan_interrupted :
    let root : Path := ⟨"store"⟩
    let h := interruptedCase "t"
    let store := ((Recorder.fresh {} ({} : Disk)).run (sink root) h).sink
    ({} : Disk).NoFiles (root.location []) ∧ store.isDir root ∧
      ∃ report, scan store root noSuite = .ok report ∧ report.hasGaps = true := by
  intro root h store
  have empty : ({} : Disk).NoFiles (root.location []) := fun _ _ hm => nomatch hm
  have hroot : store.isDir root := by decide +kernel
  obtain ⟨report, hscan, -, hgaps⟩ := reserved_of_scan root {} {} h empty hroot
  obtain ⟨o, ho⟩ := @exists_offerAfter {} (h.take 2) ⟨0, defaultStream, probed⟩ rfl
  obtain ⟨-, hcase, -⟩ := offerAfter_eq_some ho
  have hkept : (offerAfter {} (h.take 2) ⟨0, defaultStream, probed⟩).any fun o =>
      (sink root (after root {} {} (h.take 2)) o).2 := by decide +kernel
  have writes : Writes root {} {} h (h.take 2) ⟨0, defaultStream, probed⟩ o :=
    ⟨⟨h.drop 3, rfl⟩, ho, by simpa [ho] using hkept⟩
  have hgap := (@gap_of_numbersOf root {} {} h ⟨["Math"], "t"⟩ (by decide +kernel)).2
  have hkey : o.case = ⟨["Math"], "t"⟩ := hcase
  refine ⟨empty, hroot, report, hscan, hgaps.2 ⟨_, _, o, writes, by decide +kernel, ?_, ?_⟩⟩
  · rw [hkey]
    decide +kernel
  · rwa [hkey]

/-- The name of a declared case becomes that of the directory for steps outside all cases. Every step is
declared; yet the directory is reported as reserved, and its gap is passed over. -/
theorem gap_of_declared_case :
    let root : Path := ⟨"store"⟩
    let key : CaseKey := ⟨["Math"], "unknown_test"⟩
    let h := interruptedCase key.test
    ({} : Disk).NoFiles (root.location []) ∧
      Throughout (fun past a => a.op.isRecord → ¬ Undeclared past a) h ∧
      Gap (numbersAt root {} {} h (casePath key)) ∧
      ∃ report, scan (after root {} {} h) root noSuite = .ok report ∧ report.hasGaps = false ∧
        ∃ c ∈ report.cases, c.path = casePath key ∧ c.reserved = true ∧ c.contiguous = false := by
  intro root key h
  have empty : ({} : Disk).NoFiles (root.location []) := fun _ _ hm => nomatch hm
  have hnumbers : numbersOf (written ⟨"store"⟩ {} (offersOf {} (interruptedCase "unknown_test")))
      (caseNames ⟨["Math"], "unknown_test"⟩) = [1, 3] := by decide +kernel
  have hroot : (after ⟨"store"⟩ {} {} (interruptedCase "unknown_test")).isDir ⟨"store"⟩ := by
    decide +kernel
  have hdeclared : Throughout (fun past a => a.op.isRecord → ¬ Undeclared past a)
      (interruptedCase "unknown_test") := by decide +kernel
  have hall : ∀ o ∈ offersOf {} (interruptedCase "unknown_test"), InReserved noSuite o.case := by
    decide +kernel
  obtain ⟨hthird, hgap⟩ := gap_of_numbersOf hnumbers
  obtain ⟨report, hscan, hwritten, hlisted⟩ := exists_report empty noSuite hroot
  refine ⟨empty, hdeclared, hgap, report, hscan, ?_, ?_⟩
  · rw [StoreReport.hasGaps, List.any_eq_false]
    intro c hc
    obtain ⟨past, a, o, w, hreport⟩ := hwritten c hc
    have ho := (written_sublist root {} _).subset (mem_written_iff.2 ⟨past, a, w⟩)
    simp [(hreport.reserved_iff w.suitePath_ne_nil).2 (hall o ho)]
  · obtain ⟨c, hc, hreport⟩ := hlisted _ 3 hthird (by decide)
    exact ⟨c, hc, hreport.path_eq, (hreport.reserved_iff (List.cons_ne_nil _ _)).2 (by decide +kernel),
      (hreport.not_contiguous_iff empty).2 hgap⟩

end StepTrace.Store
