import Mathlib.Data.Finset.Max
import Mathlib.Data.Set.Card
import Mathlib.Order.Interval.Set.Nat
import StepTrace.Proofs.Files.Sound
import StepTrace.Proofs.Store.Scan

/-!
What a report on a store says, told from the tree of files alone: the directories with step files in their order,
and for each of them how many step numbers there are and which are missing below the largest. Numbers are
contiguous if they start with one and leave none out; a zero is no part of this.
-/
namespace StepTrace.Store

/-! ### Names of step files -/

/-- Digits that make a number of 64 bits. -/
structure Denote (digits : List Char) (n : Nat) : Prop where
  ne_nil : digits ≠ []
  all_digits : ∀ c ∈ digits, c.isDigit
  value_eq : Nat.ofDigitChars 10 digits 0 = n
  lt : n < Nat.pow 2 64

/-- A file name that gives a step number: its digits, perhaps after a plus sign, and the extension. -/
def IsStepName (name : String) (n : Nat) : Prop :=
  ∃ sign digits, (sign = [] ∨ sign = ['+']) ∧ Denote digits n ∧
    name.toList = sign ++ digits ++ ['.', 'j', 's', 'o', 'n']

theorem number?_eq_some_iff {s : String} {n : Nat} :
    number? s = some n ↔
      ∃ sign digits, (sign = [] ∨ sign = ['+']) ∧ Denote digits n ∧ s.toList = sign ++ digits := by
  have hvalue (digits : List Char) :
      digits.foldl (fun n c => n * 10 + (c.toNat - '0'.toNat)) 0 = Nat.ofDigitChars 10 digits 0 := by
    simp only [Nat.ofDigitChars_eq_foldl, Nat.mul_comm]
  have hread (digits : List Char) :
      (if digits.isEmpty || !digits.all Char.isDigit then none
        else if Nat.ofDigitChars 10 digits 0 < Nat.pow 2 64 then some (Nat.ofDigitChars 10 digits 0)
        else none) = some n ↔ Denote digits n := by
    constructor
    · intro h
      simp only [Option.ite_none_left_eq_some, Option.ite_none_right_eq_some, Option.some.injEq] at h
      obtain ⟨hdigits, hlt, rfl⟩ := h
      have hd : digits ≠ [] ∧ ∀ c ∈ digits, c.isDigit := by simpa using hdigits
      exact ⟨hd.1, hd.2, rfl, hlt⟩
    · rintro ⟨hne, hall, rfl, hlt⟩
      have hd : (digits.isEmpty || !digits.all Char.isDigit) = false := by simpa using ⟨hne, hall⟩
      rw [hd, if_neg Bool.false_ne_true, if_pos hlt]
  unfold number?
  simp only [hvalue, hread]
  constructor
  · intro h
    split at h
    · next r hs => exact ⟨['+'], r, .inr rfl, h, hs⟩
    · exact ⟨[], s.toList, .inl rfl, h, rfl⟩
  · rintro ⟨sign, digits, rfl | rfl, h, hs⟩
    · rw [hs]
      split
      · next r hplus =>
        have hd : '+'.isDigit := h.all_digits '+' (by simp_all)
        cases hd
      · exact h
    · rw [hs]
      exact h

theorem stepNumber?_eq_some_iff {name : String} {n : Nat} :
    stepNumber? name = some n ↔ IsStepName name n := by
  have hjson : String.ofList ['j', 's', 'o', 'n'] = "json" := rfl
  constructor
  · intro h
    rcases Path.splitName_cases name with hn | ⟨stem, extension, hstem, hdot, rfl⟩
    · simp [stepNumber?, hn] at h
    · rw [stepNumber?, Path.splitName_of_dot hstem hdot] at h
      split at h
      · next heq =>
        obtain ⟨rfl, he⟩ := Prod.mk.inj heq
        obtain ⟨sign, digits, hsign, hd, hs⟩ := number?_eq_some_iff.1 h
        have hext : extension = ['j', 's', 'o', 'n'] := by
          simpa using congrArg String.toList (Option.some.inj he)
        refine ⟨sign, digits, hsign, hd, ?_⟩
        rw [String.toList_ofList] at hs ⊢
        rw [hext, hs]
      · cases h
  · rintro ⟨sign, digits, hsign, hd, hs⟩
    have hname : name = String.ofList (sign ++ digits ++ '.' :: ['j', 's', 'o', 'n']) := by
      rw [← String.ofList_toList (s := name), hs]
    have hne : sign ++ digits ≠ [] := fun h => hd.ne_nil (List.append_eq_nil_iff.1 h).2
    rw [hname, stepNumber?, Path.splitName_of_dot hne (by decide), hjson]
    exact number?_eq_some_iff.2 ⟨sign, digits, hsign, hd, String.toList_ofList⟩

/-! ### Reports on directories -/

/-- The step numbers of the files in a directory. -/
def numbersIn (d : Disk) (dir : Location) : Set Nat :=
  {n | ∃ name, d.IsFile (dir ++ [name]) ∧ IsStepName name n}

theorem stepNumbers_eq_numbersIn {d : Disk} (tree : d.Sound) (dir : Location) :
    stepNumbers d dir = numbersIn d dir := by
  ext n
  constructor
  · rintro ⟨name, bytes, hm, hn⟩
    exact ⟨name, ⟨bytes, tree.entry?_of_mem hm⟩, stepNumber?_eq_some_iff.1 hn⟩
  · rintro ⟨name, ⟨bytes, hb⟩, hn⟩
    exact ⟨name, bytes, Disk.mem_of_entry?_eq_file hb, stepNumber?_eq_some_iff.2 hn⟩

/-- What a case tells of its step numbers: how many there are, and which are missing below the largest. -/
structure Accounts (c : CaseReport) (numbers : Set Nat) : Prop where
  steps : c.steps = numbers.ncard
  ascending : c.missing.Pairwise (· < ·)
  missing : ∃ max, IsGreatest numbers max ∧ ∀ n, n ∈ c.missing ↔ 1 ≤ n ∧ n ≤ max ∧ n ∉ numbers
  contiguous : c.contiguous = true ↔ c.missing = []

theorem accounts_caseReport (suiteName : String) (names : List String) {ns : List Nat} {numbers : Set Nat}
    (h : Lists ns numbers) (hne : numbers.Nonempty) :
    Accounts (caseReport suiteName names ns) numbers := by
  have hnumbers : numbers = (ns.toFinset : Set Nat) := by
    ext n
    simp [h.mem_iff]
  subst hnumbers
  have hns : ns.toFinset.Nonempty := Finset.coe_nonempty.1 hne
  have hgreatest := ns.toFinset.isGreatest_max' hns
  refine ⟨?_, pairwise_gaps h.ascending, ⟨_, hgreatest, fun n => ?_⟩, List.isEmpty_iff⟩
  · rw [Set.ncard_coe_finset, List.toFinset_card_of_nodup h.ascending.nodup]
    rfl
  · have hbelow (hn : n ∉ ns) : (∃ m ∈ ns, n < m) ↔ n ≤ ns.toFinset.max' hns := by
      constructor
      · rintro ⟨m, hm, hlt⟩
        exact hlt.le.trans (hgreatest.2 (by simpa using hm))
      · intro hle
        have hmax : ns.toFinset.max' hns ∈ ns := List.mem_toFinset.1 (ns.toFinset.max'_mem hns)
        exact ⟨_, hmax, lt_of_le_of_ne hle fun he => hn (he ▸ hmax)⟩
    have hgap : (n ∉ ns ∧ ∃ m ∈ ns, n < m) ↔ n ≤ ns.toFinset.max' hns ∧ n ∉ ns := by
      rw [and_comm]
      exact and_congr_left hbelow
    rw [caseReport, mem_gaps h.ascending, Finset.mem_coe, List.mem_toFinset, hgap]

/-- Nothing is missing if the numbers run from one to how many there are, or from zero to one below that. -/
theorem Accounts.contiguous_iff {c : CaseReport} {numbers : Set Nat} (h : Accounts c numbers) :
    c.contiguous = true ↔ numbers = Set.Icc 1 c.steps ∨ numbers = Set.Iio c.steps := by
  obtain ⟨max, ⟨hmax, hle⟩, hmissing⟩ := h.missing
  have hfull : c.contiguous = true ↔ ∀ n, 1 ≤ n → n ≤ max → n ∈ numbers := by
    rw [h.contiguous, List.eq_nil_iff_forall_not_mem]
    simp only [hmissing, not_and, not_not]
  rw [hfull, h.steps]
  constructor
  · intro full
    by_cases hzero : 0 ∈ numbers
    · right
      have hnumbers : numbers = Set.Iio (max + 1) := by
        ext n
        rw [Set.mem_Iio, Nat.lt_succ_iff]
        refine ⟨fun hn => hle hn, fun hn => ?_⟩
        rcases Nat.eq_zero_or_pos n with rfl | hpos
        · exact hzero
        · exact full n hpos hn
      rw [hnumbers, Set.ncard_Iio_nat]
    · left
      have hnumbers : numbers = Set.Icc 1 max := by
        ext n
        refine ⟨fun hn => ⟨?_, hle hn⟩, fun hn => full n hn.1 hn.2⟩
        exact Nat.one_le_iff_ne_zero.2 fun h0 => hzero (h0 ▸ hn)
      rw [hnumbers, Set.ncard_Icc_nat]
      simp
  · rintro (hnumbers | hnumbers) n hpos hn
    · rw [hnumbers] at hmax ⊢
      exact ⟨hpos, hn.trans hmax.2⟩
    · rw [hnumbers] at hmax ⊢
      exact lt_of_le_of_lt hn hmax

/-- A report that tells, of the directories with step files below a location, each once and in order, what step
numbers there are. -/
structure Inspects (d : Disk) (top : Location) (dirs : List (List String)) (report : StoreReport) : Prop where
  ascending : dirs.Pairwise (· < ·)
  mem_iff : ∀ names, names ∈ dirs ↔
    d.entry? (top ++ names) = some .dir ∧ (numbersIn d (top ++ names)).Nonempty
  cases : List.Forall₂ (fun names c => c.path = "/".intercalate names ∧
    Accounts c (numbersIn d (top ++ names))) dirs report.cases
  total : report.totalSteps = (report.cases.map CaseReport.steps).sum

theorem exists_inspects {d : Disk} (tree : d.Sound) {root : Path} (accepted : d.isDir root)
    (suiteName : String) :
    ∃ dirs report, scan d root suiteName = .ok report ∧
      Inspects d (root.location d.cwd) dirs report := by
  obtain ⟨groups, ascending, nonempty, lists, hscan⟩ := exists_groups accepted
  simp only [stepNumbers_eq_numbersIn tree] at nonempty lists
  refine ⟨groups.keys, _, hscan suiteName, ascending, fun names => ?_, ?_, ?_⟩
  · rw [nonempty]
    refine ⟨fun ⟨n, hn⟩ => ⟨?_, n, hn⟩, And.right⟩
    obtain ⟨name, ⟨bytes, hb⟩, -⟩ := hn
    simpa using (tree.isPlace hb).above
  · rw [Keyed.keys, List.forall₂_map_left_iff, List.forall₂_map_right_iff]
    refine List.forall₂_same.2 fun g hg => ⟨rfl, accounts_caseReport suiteName g.1 (lists g hg) ?_⟩
    exact (nonempty g.1).1 (List.mem_map_of_mem hg)
  · rw [List.map_map]
    rfl

/-- The numbers of a reported directory are called contiguous if they run from one up to how many there are, and
also if they run from zero up to one below that. -/
theorem contiguous_of_scan {d : Disk} (tree : d.Sound) {root : Path} {suiteName : String}
    {report : StoreReport} (scanned : scan d root suiteName = .ok report) {c : CaseReport}
    (hc : c ∈ report.cases) :
    ∃ names, d.entry? (root.location d.cwd ++ names) = some .dir ∧ c.path = "/".intercalate names ∧
      c.steps = (numbersIn d (root.location d.cwd ++ names)).ncard ∧
      (c.contiguous = true ↔
        numbersIn d (root.location d.cwd ++ names) = Set.Icc 1 c.steps ∨
        numbersIn d (root.location d.cwd ++ names) = Set.Iio c.steps) := by
  obtain ⟨dirs, report', hscan, h⟩ := exists_inspects tree (isDir_of_scan scanned) suiteName
  obtain rfl : report' = report := Except.ok.inj (hscan.symm.trans scanned)
  obtain ⟨i, hi, rfl⟩ := List.getElem_of_mem hc
  have hdirs : i < dirs.length := by rwa [h.cases.length_eq]
  obtain ⟨hpath, haccounts⟩ := h.cases.get hdirs hi
  exact ⟨dirs[i], ((h.mem_iff _).1 (List.getElem_mem hdirs)).1, hpath, haccounts.steps,
    haccounts.contiguous_iff⟩

theorem contiguous_of_scan_pair :
    let d : Disk := { entries := [(["store"], .dir), (["store", "S"], .dir),
      (["store", "S", "2.json"], .file .empty), (["store", "S", "01.json"], .file .empty)] }
    let root : Path := ⟨"store"⟩
    let report : StoreReport := ⟨"store", [⟨"S", 2, true, [], false⟩], 2⟩
    d.Sound ∧ scan d root noSuite = .ok report ∧
      ∃ names, "S" = "/".intercalate names ∧
        (numbersIn d (root.location d.cwd ++ names) = Set.Icc 1 2 ∨
          numbersIn d (root.location d.cwd ++ names) = Set.Iio 2) := by
  intro d root report
  have tree : d.Sound := by decide +kernel
  have found : d.filesBelow root = .ok [["S", "2.json"], ["S", "01.json"]] := by decide +kernel
  have hscan : scan d root noSuite = .ok report :=
    (scan_of_ordered noSuite (by decide +kernel) found (by decide +kernel)).trans (by decide +kernel)
  obtain ⟨names, -, hpath, -, hcontiguous⟩ := contiguous_of_scan tree hscan (List.mem_singleton_self _)
  exact ⟨tree, hscan, names, hpath, hcontiguous.1 rfl⟩

/-- A directory whose only step has the number zero is reported without gaps, though it is not numbered from one. -/
theorem contiguous_of_zero :
    let d : Disk := { entries := [(["store"], .dir), (["store", "S"], .dir), (["store", "S", "t"], .dir),
      (["store", "S", "t", "0.json"], .file .empty)] }
    let root : Path := ⟨"store"⟩
    d.Sound ∧ d.isDir root ∧ scan d root noSuite = .ok ⟨"store", [⟨"S/t", 1, true, [], false⟩], 1⟩ ∧
      numbersIn d (root.location d.cwd ++ ["S", "t"]) ≠ Set.Icc 1 1 := by
  intro d root
  have hroot : d.isDir root := by decide +kernel
  have hfiles : d.filesBelow root = .ok [["S", "t", "0.json"]] := by decide +kernel
  have hfile : d.IsFile (root.location d.cwd ++ ["S", "t"] ++ ["0.json"]) := by decide +kernel
  have hname : IsStepName "0.json" 0 := stepNumber?_eq_some_iff.1 (by decide +kernel)
  refine ⟨by decide +kernel, hroot, ?_, fun h => ?_⟩
  · exact (scan_of_ordered noSuite hroot hfiles (by decide +kernel)).trans (by decide +kernel)
  · have hzero : 0 ∈ Set.Icc 1 1 := h ▸ ⟨_, hfile, hname⟩
    simp at hzero

/-! ### What a report depends on -/

theorem Lists.eq {ns ns' : List Nat} {s : Set Nat} (h : Lists ns s) (h' : Lists ns' s) : ns = ns' :=
  h.ascending.eq_of_mem_iff h'.ascending fun n => (h.mem_iff n).trans (h'.mem_iff n).symm

/-- Directories whose files have the same step numbers are reported alike. -/
theorem scan_congr {d d' : Disk} {root : Path} (suiteName : String) (accepted : d.isDir root)
    (accepted' : d'.isDir root)
    (h : ∀ names, stepNumbers d (root.location d.cwd ++ names) =
      stepNumbers d' (root.location d'.cwd ++ names)) :
    scan d root suiteName = scan d' root suiteName := by
  obtain ⟨groups, ascending, nonempty, lists, hscan⟩ := exists_groups accepted
  obtain ⟨groups', ascending', nonempty', lists', hscan'⟩ := exists_groups accepted'
  have keys : groups.keys = groups'.keys :=
    ascending.eq_of_mem_iff ascending' fun names => by rw [nonempty, nonempty', h]
  have values : ∀ g ∈ groups, ∀ g' ∈ groups', g.1 = g'.1 → g = g' := by
    intro g hg g' hg' he
    have hl := lists g hg
    rw [h, he] at hl
    exact Prod.ext he (hl.eq (lists' g' hg'))
  have hgroups : groups = groups' := by
    refine List.ext_getElem (by simpa [Keyed.keys] using congrArg List.length keys) fun i hi hi' => ?_
    refine values _ (List.getElem_mem hi) _ (List.getElem_mem hi') ?_
    have hkey := congrArg (·[i]?) keys
    simpa [Keyed.keys, hi, hi'] using hkey
  rw [hscan, hscan', hgroups]

/-- A scan of a tree reports the directories below its root that hold a file with a step number, each once and in
the order of their names, with the number of step numbers there and those that are missing below the largest, and
as a total the sum of the numbers of steps. No other file matters: a tree with the same step files is reported
alike. -/
theorem scan_exact {d : Disk} (tree : d.Sound) {root : Path} (accepted : d.isDir root)
    (suiteName : String) :
    ∃ dirs report, scan d root suiteName = .ok report ∧ Inspects d (root.location d.cwd) dirs report ∧
      ∀ d' : Disk, d'.Sound → d'.isDir root →
        (∀ names name n, IsStepName name n → (d'.IsFile (root.location d'.cwd ++ names ++ [name]) ↔
          d.IsFile (root.location d.cwd ++ names ++ [name]))) →
        scan d' root suiteName = .ok report := by
  obtain ⟨dirs, report, hscan, hinspects⟩ := exists_inspects tree accepted suiteName
  refine ⟨dirs, report, hscan, hinspects, fun d' tree' accepted' same => ?_⟩
  rw [← hscan]
  refine scan_congr suiteName accepted' accepted fun names => ?_
  rw [stepNumbers_eq_numbersIn tree', stepNumbers_eq_numbersIn tree]
  ext n
  exact exists_congr fun name => and_congr_left fun hn => same names name n hn

/-- Two names for the same number, a file of another kind, and a case below a case. -/
theorem scan_exact_nested :
    let d : Disk := { entries := [(["store"], .dir), (["store", "S"], .dir),
      (["store", "S", "+3.json"], .file .empty), (["store", "S", "03.json"], .file .empty),
      (["store", "S", "1.json"], .file .empty), (["store", "S", "notes.json"], .file .empty),
      (["store", "S", "t"], .dir), (["store", "S", "t", "2.json"], .file .empty)] }
    let root : Path := ⟨"store"⟩
    let report : StoreReport := ⟨"store", [⟨"S", 2, false, [2], false⟩, ⟨"S/t", 1, false, [1], false⟩], 3⟩
    d.Sound ∧ d.isDir root ∧ scan d root noSuite = .ok report ∧
      ∃ dirs, Inspects d (root.location d.cwd) dirs report := by
  intro d root report
  have tree : d.Sound := by decide +kernel
  have accepted : d.isDir root := by decide +kernel
  have found : d.filesBelow root = .ok [["S", "+3.json"], ["S", "03.json"], ["S", "1.json"],
      ["S", "notes.json"], ["S", "t", "2.json"]] := by decide +kernel
  have hreport : scan d root noSuite = .ok report :=
    (scan_of_ordered noSuite accepted found (by decide +kernel)).trans (by decide +kernel)
  obtain ⟨dirs, report', hscan, hinspects, -⟩ := scan_exact tree accepted noSuite
  obtain rfl : report' = report := Except.ok.inj (hscan.symm.trans hreport)
  exact ⟨tree, accepted, hreport, dirs, hinspects⟩

end StepTrace.Store
