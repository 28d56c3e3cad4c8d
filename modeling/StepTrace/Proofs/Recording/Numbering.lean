import Mathlib.Data.Finset.Max
import StepTrace.Proofs.Recording.Activation
import StepTrace.Proofs.Recording.Isolation
import StepTrace.Proofs.Store.Contiguity

/-!
The numbers under which the steps of a case are offered. A counter goes up by one from step to step, so the
numbers before that of a step were given to the steps before it; if these are steps of the same case, no
number of the case is left out. A case that follows the open suites may become another case while it is
active, and then its counter goes on under the other name.
-/
namespace StepTrace.Recording

/-! ### The steps before a step -/

/-- A step of an active case has the steps of all smaller numbers before it, in the same activation. -/
theorem exists_record_of_le_recordsSinceStart {h : List Act} {id : String} {m : Nat}
    (hc : (caseAfter? (pastOf h id)).isSome) (h1 : 1 ≤ m)
    (hm : m ≤ recordsSinceStart (pastOf h id)) :
    ∃ before c between, h = before ++ c :: between ∧ c.stream = id ∧ c.op.isRecord ∧
      Uninterrupted id between ∧ (caseAfter? (pastOf before id)).isSome ∧
      recordsSinceStart (pastOf before id) + 1 = m := by
  induction h using List.reverseRecOn with
  | nil => simp [pastOf, caseAfter?] at hc
  | append_singleton h a ih =>
    -- an act that interrupts nothing leaves the step where it was
    have hlater (hquiet : a.stream = id → a.op.turnsCase = false ∧ a.op.restarts = false)
        (hc : (caseAfter? (pastOf h id)).isSome) (hm : m ≤ recordsSinceStart (pastOf h id)) :
        ∃ before c between, h ++ [a] = before ++ c :: between ∧ c.stream = id ∧ c.op.isRecord ∧
          Uninterrupted id between ∧ (caseAfter? (pastOf before id)).isSome ∧
          recordsSinceStart (pastOf before id) + 1 = m := by
      obtain ⟨before, c, between, rfl, hstream, hrecord, hbetween, hcase, hnumber⟩ := ih hc hm
      refine ⟨before, c, between ++ [a], by simp, hstream, hrecord, ?_, hcase, hnumber⟩
      intro b hb
      rcases List.mem_append.1 hb with hb | hb
      · exact hbetween b hb
      · rw [List.mem_singleton.1 hb]
        exact hquiet
    rw [pastOf_concat] at hc hm
    by_cases hs : a.stream = id
    · rw [if_pos hs] at hc hm
      rw [caseAfter?_concat] at hc
      rw [recordsSinceStart_concat] at hm
      cases hop : a.op with
      | record call =>
        simp only [hop, Operation.restarts, Operation.isRecord, Bool.false_eq_true, if_false,
          if_true] at hc hm
        by_cases hlast : m ≤ recordsSinceStart (pastOf h id)
        · exact hlater (fun _ => by simp [hop, Operation.turnsCase, Operation.restarts]) hc hlast
        · exact ⟨h, a, [], rfl, hs, by simp [hop, Operation.isRecord], by simp [Uninterrupted], hc,
            by omega⟩
      | enterSuite name | exitSuite =>
        simp only [hop, Operation.restarts, Operation.isRecord, Bool.false_eq_true, if_false,
          Nat.add_zero] at hc hm
        exact hlater (fun _ => by simp [hop, Operation.turnsCase, Operation.restarts]) hc hm
      | startCase name path =>
        simp only [hop, Operation.restarts, if_true] at hm
        omega
      | endCase => simp [hop] at hc
      | reset =>
        simp only [hop, Operation.restarts, if_true] at hm
        omega
    · rw [if_neg hs] at hc hm
      exact hlater (fun he => absurd he hs) hc hm

/-- A step outside all cases has the steps of all smaller numbers under its suite path before it. -/
theorem exists_record_of_le_idleRecords {options : Options} {h : List Act} {path : List String} {m : Nat}
    (h1 : 1 ≤ m) (hm : m ≤ idleRecords options h path) :
    ∃ before c between, h = before ++ c :: between ∧
      idlePath? options (pastOf before c.stream) c.op = some path ∧
      idleRecords options before path + 1 = m := by
  induction h using List.reverseRecOn with
  | nil =>
    have hnone : idleRecords options [] path = 0 := rfl
    omega
  | append_singleton h a ih =>
    by_cases hlast : m ≤ idleRecords options h path
    · obtain ⟨before, c, between, rfl, hidle, hnumber⟩ := ih hlast
      exact ⟨before, c, between ++ [a], by simp, hidle, hnumber⟩
    · rw [idleRecords_concat] at hm
      split at hm
      · next hidle => exact ⟨h, a, [], rfl, hidle, by omega⟩
      · omega

/-! ### The numbers of a case -/

/-- A record in an active case belongs to the case that the records before it in its activation belong to. -/
def KeepsCase (options : Options) (past : List Act) (a : Act) : Prop :=
  (caseAfter? (pastOf past a.stream)).isSome →
    ∀ before c between, past = before ++ c :: between → c.stream = a.stream → c.op.isRecord →
      Uninterrupted a.stream between →
      keyAfter options (pastOf before a.stream) = keyAfter options (pastOf past a.stream)

instance (options : Options) (past : List Act) (a : Act) : Decidable (KeepsCase options past a) :=
  decidable_of_iff ((caseAfter? (pastOf past a.stream)).isSome → ∀ x ∈ splits past,
      x.2.1.stream = a.stream → x.2.1.op.isRecord → Uninterrupted a.stream x.2.2 →
      keyAfter options (pastOf x.1 a.stream) = keyAfter options (pastOf past a.stream))
    ⟨fun h hc _ _ _ he => h hc _ (mem_splits.2 he), fun h hc _ hx => h hc _ _ _ (mem_splits.1 hx)⟩

/-- A record of a case keeps it. -/
def KeepsTo (options : Options) (key : CaseKey) (past : List Act) (a : Act) : Prop :=
  a.op.isRecord → keyAfter options (pastOf past a.stream) = key → KeepsCase options past a

instance (options : Options) (key : CaseKey) (past : List Act) (a : Act) :
    Decidable (KeepsTo options key past a) :=
  inferInstanceAs (Decidable (_ → _ → _))

theorem mem_offersOf {options : Options} {h : List Act} {o : Offer} :
    o ∈ offersOf options h ↔
      ∃ before a between, h = before ++ a :: between ∧ offerAfter options before a = some o := by
  refine ⟨exists_of_mem_offersOf, ?_⟩
  rintro ⟨before, a, between, rfl, ho⟩
  have hsplit : before ++ a :: between = (before ++ [a]) ++ between := by simp
  rw [offersOf, hsplit, eachFrom_append, List.reduceOption_append, ← offersOf, offersOf_concat]
  simp [ho]

/-- The numbers under which the steps of a case are offered. -/
def numbersUnder (options : Options) (key : CaseKey) (h : List Act) : List Nat :=
  (offersOf options h).filterMap fun o => if o.case = key then some o.step.stepNumber else none

theorem mem_numbersUnder {options : Options} {key : CaseKey} {h : List Act} {n : Nat} :
    n ∈ numbersUnder options key h ↔
      ∃ before a between, h = before ++ a :: between ∧ a.op.isRecord ∧
        keyAfter options (pastOf before a.stream) = key ∧ numberAfter options before a.stream = n := by
  simp only [numbersUnder, List.mem_filterMap, mem_offersOf, Option.ite_none_right_eq_some,
    Option.some.injEq]
  constructor
  · rintro ⟨o, ⟨before, a, between, hh, ho⟩, hkey, hnumber⟩
    obtain ⟨hrecord, hcase, hstep⟩ := offerAfter_eq_some ho
    exact ⟨before, a, between, hh, hrecord, hcase.symm.trans hkey, hstep.symm.trans hnumber⟩
  · rintro ⟨before, a, between, hh, hrecord, hkey, hnumber⟩
    obtain ⟨now, stream, op⟩ := a
    cases op with
    | record call => exact ⟨_, ⟨before, _, between, hh, rfl⟩, hkey, hnumber⟩
    | _ => cases hrecord

/-- The numbers before that of a step of a case are numbers of the case, if the records of the case
keep it. -/
theorem numbersUnder_downward {options : Options} {key : CaseKey} {h : List Act}
    (keeps : Throughout (KeepsTo options key) h) {n : Nat} (hn : n ∈ numbersUnder options key h) :
    1 ≤ n ∧ ∀ m, 1 ≤ m → m < n → m ∈ numbersUnder options key h := by
  obtain ⟨before, a, rest, rfl, hrecord, hkey, rfl⟩ := mem_numbersUnder.1 hn
  simp only [numberAfter]
  split
  · next hc =>
    refine ⟨by omega, fun m h1 hm => ?_⟩
    obtain ⟨past, c, between, rfl, hstream, hc', hbetween, hcase, hnumber⟩ :=
      exists_record_of_le_recordsSinceStart hc h1 (by omega)
    have hkeeps : KeepsTo options key (past ++ c :: between) a := by
      have happend : past ++ c :: between ++ a :: rest = (past ++ c :: between) ++ [a] ++ rest := by simp
      rw [happend] at keeps
      exact (throughout_concat.1 keeps.of_append).2
    have hsame := hkeeps hrecord hkey hc past c between rfl hstream hc' hbetween
    refine mem_numbersUnder.2 ⟨past, c, between ++ a :: rest, by simp, hc', ?_, ?_⟩
    · rw [hstream, hsame, hkey]
    · rw [numberAfter, hstream]
      simpa [hcase] using hnumber
  · next hc =>
    refine ⟨by omega, fun m h1 hm => ?_⟩
    obtain ⟨past, c, between, rfl, hidle, hnumber⟩ :=
      @exists_record_of_le_idleRecords options before (livePath options (pastOf before a.stream)) m h1
        (by omega)
    obtain ⟨hc', hcase, hpath⟩ := idlePath?_eq_some.1 hidle
    have hnone : caseAfter? (pastOf (past ++ c :: between) a.stream) = none := by simpa using hc
    refine mem_numbersUnder.2 ⟨past, c, between ++ a :: rest, by simp, hc', ?_, ?_⟩
    · rw [keyAfter_of_none options hcase, hpath, ← hkey, keyAfter_of_none options hnone]
    · simpa [numberAfter, hcase, hpath] using hnumber

/-- Numbers from one on without a gap. -/
theorem exists_eq_Icc_of_downward {ns : List Nat} (hne : ns ≠ [])
    (h : ∀ n ∈ ns, 1 ≤ n ∧ ∀ m, 1 ≤ m → m < n → m ∈ ns) :
    ∃ N, 1 ≤ N ∧ {n | n ∈ ns} = Set.Icc 1 N := by
  have hne' : ns.toFinset.Nonempty := (List.toFinset_nonempty_iff ns).2 hne
  have hlast : ns.toFinset.max' hne' ∈ ns := List.mem_toFinset.1 (Finset.max'_mem _ hne')
  refine ⟨ns.toFinset.max' hne', (h _ hlast).1, Set.ext fun n => ?_⟩
  change n ∈ ns ↔ n ∈ Set.Icc 1 _
  rw [Set.mem_Icc]
  constructor
  · exact fun hn => ⟨(h n hn).1, Finset.le_max' _ _ (List.mem_toFinset.2 hn)⟩
  · rintro ⟨h1, hle⟩
    rcases Nat.lt_or_eq_of_le hle with hlt | rfl
    · exact (h _ hlast).2 n h1 hlt
    · exact hlast

/-! ### Suites in a case -/

theorem caseAfter?_of_uninterrupted {id : String} {h between : List Act} (hu : Uninterrupted id between) :
    caseAfter? (pastOf (h ++ between) id) = caseAfter? (pastOf h id) := by
  rw [pastOf_append, caseAfter?_append]
  intro op hop
  obtain ⟨a, ha, hstream, rfl⟩ := mem_pastOf.1 hop
  exact (hu a ha hstream).1

/-- A case that goes on stays the same, if suites open and close in a case only when it came with its
own. -/
theorem keyAfter_of_uninterrupted {options : Options} {id : String} {h between : List Act}
    (steady : Throughout Store.Steady (h ++ between)) (hc : (caseAfter? (pastOf h id)).isSome)
    (hu : Uninterrupted id between) :
    keyAfter options (pastOf (h ++ between) id) = keyAfter options (pastOf h id) := by
  induction between using List.reverseRecOn with
  | nil => rw [List.append_nil]
  | append_singleton between a ih =>
    have hbetween : Uninterrupted id between := fun b hb => hu b (List.mem_append_left _ hb)
    rw [← List.append_assoc] at steady ⊢
    obtain ⟨hsteady, ha⟩ := throughout_concat.1 steady
    rw [← ih hsteady hbetween, pastOf_concat]
    split
    · next hs =>
      subst hs
      have hquiet := hu a (by simp) rfl
      have hcase : (caseAfter? (pastOf (h ++ between) a.stream)).isSome := by
        rwa [caseAfter?_of_uninterrupted hbetween]
      exact Store.keyAfter_concat options ha hquiet.1 hcase
    · rfl

theorem keepsCase_of_steady {options : Options} {past : List Act} (steady : Throughout Store.Steady past)
    (a : Act) : KeepsCase options past a := by
  rintro hc before c between rfl hstream hrecord hbetween
  have hu : Uninterrupted a.stream (c :: between) := by
    refine List.forall_mem_cons.2 ⟨fun _ => ?_, hbetween⟩
    cases hop : c.op <;> simp_all [Operation.isRecord, Operation.turnsCase, Operation.restarts]
  rw [caseAfter?_of_uninterrupted hu] at hc
  exact (keyAfter_of_uninterrupted steady hc hu).symm

theorem keepsTo_of_steady {options : Options} {h : List Act} (steady : Throughout Store.Steady h)
    (key : CaseKey) : Throughout (KeepsTo options key) h := by
  induction h using List.reverseRecOn with
  | nil => simp [Throughout, eachFrom]
  | append_singleton h a ih =>
    obtain ⟨hsteady, -⟩ := throughout_concat.1 steady
    exact throughout_concat.2 ⟨ih hsteady, fun _ _ => keepsCase_of_steady hsteady a⟩

/-! ### Contiguous numbers -/

/-- The numbers under which a recorder offers the steps of a case. -/
def Recorder.numbers {σ : Type} (accept : Sink σ) (r : Recorder σ) (h : List Act) (key : CaseKey) :
    Set Nat :=
  {n | ∃ x ∈ r.offerings accept h, x.offer.case = key ∧ x.offer.step.stepNumber = n}

theorem Recorder.numbers_eq {σ : Type} (accept : Sink σ) (options : Options) (sink : σ) (h : List Act)
    (key : CaseKey) :
    (fresh options sink).numbers accept h key = {n | n ∈ numbersUnder options key h} := by
  refine Set.ext fun n => ?_
  change (∃ x ∈ _, _) ↔ n ∈ numbersUnder options key h
  simp only [numbersUnder, ← map_offerings accept options sink, List.mem_filterMap, List.mem_map,
    Option.ite_none_right_eq_some, Option.some.injEq, exists_exists_and_eq_and]

/-- Whatever is recorded over any streams, with resets or without: if the records of a case belong to the
same case as those before them in their activation, its steps are numbered from one on without a gap. So
it is for all cases, steps outside all cases among them, if suites are opened and closed in a case only
when it came with its own. -/
theorem numbers_contiguous {σ : Type} (accept : Sink σ) (options : Options) (sink : σ) (h : List Act) :
    let numbers := (Recorder.fresh options sink).numbers accept h
    (∀ key, Throughout (KeepsTo options key) h → (numbers key).Nonempty →
      ∃ N, 1 ≤ N ∧ numbers key = Set.Icc 1 N) ∧
    (Throughout Store.Steady h → ∀ key, (numbers key).Nonempty →
      ∃ N, 1 ≤ N ∧ numbers key = Set.Icc 1 N) := by
  have hkey (key : CaseKey) (keeps : Throughout (KeepsTo options key) h)
      (hne : ((Recorder.fresh options sink).numbers accept h key).Nonempty) :
      ∃ N, 1 ≤ N ∧ (Recorder.fresh options sink).numbers accept h key = Set.Icc 1 N := by
    rw [Recorder.numbers_eq] at hne ⊢
    obtain ⟨n, hn⟩ := hne
    exact exists_eq_Icc_of_downward (List.ne_nil_of_mem hn) fun n hn => numbersUnder_downward keeps hn
  exact ⟨hkey, fun steady key => hkey key (keepsTo_of_steady steady key)⟩

/-- A probe in some stream. -/
def probe (stream : String) : Act :=
  ⟨0, stream, .record
    { line := 1, column := 0, bindings := .ofReads [], returnPosition := false, file := none,
      ts := some 0 }⟩

/-- A suite that opens and closes between two steps of a case without suites, and one that stays open in a
case that came with its own, while another stream starts the same case. -/
def enteredSuites : List Act :=
  [ ⟨0, "", .startCase "t" none⟩, probe "", ⟨0, "", .enterSuite "S"⟩, ⟨0, "", .exitSuite⟩, probe ""
  , ⟨0, "", .startCase "u" (some ["P"])⟩, probe "", ⟨0, "", .enterSuite "S"⟩, probe ""
  , ⟨0, "w", .startCase "u" (some ["P"])⟩, probe "w", ⟨0, "w", .reset⟩, probe "w", ⟨0, "", .endCase⟩
  , probe "" ]

theorem numbers_contiguous_entered :
    let numbers := (Recorder.fresh {} (0, [])).numbers (Sink.list []) enteredSuites
    ¬ Throughout Store.Steady enteredSuites ∧
      Throughout (KeepsTo {} ⟨[noSuite], "t"⟩) enteredSuites ∧
      (∃ N, 1 ≤ N ∧ numbers ⟨[noSuite], "t"⟩ = Set.Icc 1 N) ∧
      Throughout Store.Steady (enteredSuites.drop 5) ∧
      ∃ N, 1 ≤ N ∧
        (Recorder.fresh {} (0, [])).numbers (Sink.list []) (enteredSuites.drop 5) ⟨["P"], "u"⟩ =
          Set.Icc 1 N := by
  intro numbers
  have keeps : Throughout (KeepsTo {} ⟨[noSuite], "t"⟩) enteredSuites := by decide +kernel
  have steady : Throughout Store.Steady (enteredSuites.drop 5) := by decide +kernel
  have hone {key : CaseKey} {h : List Act} (hm : 1 ∈ numbersUnder {} key h) :
      ((Recorder.fresh {} (0, [])).numbers (Sink.list []) h key).Nonempty := by
    rw [Recorder.numbers_eq]
    exact ⟨1, hm⟩
  have hfirst := @hone ⟨[noSuite], "t"⟩ enteredSuites (by decide +kernel)
  have hsecond := @hone ⟨["P"], "u"⟩ (enteredSuites.drop 5) (by decide +kernel)
  exact ⟨by decide +kernel, keeps,
    (numbers_contiguous (Sink.list []) {} (0, []) enteredSuites).1 _ keeps hfirst, steady,
    (numbers_contiguous (Sink.list []) {} (0, []) _).2 steady _ hsecond⟩

/-- A suite that is entered in a case without suites makes it another case, and the next step is the
second one there. -/
theorem numbers_of_entered_suite :
    let h : List Act :=
      [⟨0, "", .startCase "t" none⟩, probe "", ⟨0, "", .enterSuite "S"⟩, probe ""]
    let numbers := (Recorder.fresh {} (0, [])).numbers (Sink.list []) h
    (∀ a ∈ h, a.op.restarts → a.op.turnsCase) ∧ numbers ⟨["S"], "t"⟩ = {2} ∧
      ∀ N, numbers ⟨["S"], "t"⟩ ≠ Set.Icc 1 N := by
  intro h numbers
  have hnumbers : numbers ⟨["S"], "t"⟩ = {2} := by
    have hlist : numbersUnder {} ⟨["S"], "t"⟩ h = [2] := by decide +kernel
    simp only [numbers, Recorder.numbers_eq, hlist]
    ext n
    simp
  refine ⟨by decide, hnumbers, fun N hN => ?_⟩
  rw [hnumbers] at hN
  have h2 : 2 ∈ Set.Icc 1 N := hN ▸ Set.mem_singleton 2
  have h1 : 1 ∈ ({2} : Set Nat) := hN ▸ Set.mem_Icc.2 ⟨Nat.le_refl 1, Nat.le_trans (by decide) h2.2⟩
  simp at h1

end StepTrace.Recording
