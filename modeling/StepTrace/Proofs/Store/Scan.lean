import Mathlib.Algebra.GroupWithZero.Nat
import Mathlib.Data.List.Induction
import Mathlib.Data.List.Lex
import Mathlib.Data.String.Basic
import Mathlib.Order.Interval.Set.Basic
import StepTrace.Proofs.Files.Disk
import StepTrace.Store.Scan

/-!
What a scan of a store finds: for every directory the step numbers of its files, and of these what is
missing below the largest.
-/
namespace StepTrace.Store

/-- The step numbers that the files of a directory stand for. -/
def stepNumbers (d : Disk) (dir : Location) : Set Nat :=
  {n | ∃ name bytes, (dir ++ [name], Entry.file bytes) ∈ d.entries ∧ stepNumber? name = some n}

theorem stepOf?_eq_some {names dir : List String} {n : Nat} :
    stepOf? names = some (dir, n) ↔ ∃ name, names = dir ++ [name] ∧ stepNumber? name = some n := by
  rcases List.eq_nil_or_concat names with rfl | ⟨init, last, rfl⟩
  · simp [stepOf?]
  · rw [List.concat_eq_append]
    constructor
    · intro h
      obtain ⟨m, hm, he⟩ : ∃ m, stepNumber? last = some m ∧ (init, m) = (dir, n) := by
        simpa [stepOf?] using h
      cases he
      exact ⟨last, rfl, hm⟩
    · rintro ⟨name, he, hn⟩
      obtain ⟨rfl, hl⟩ := List.append_inj' he rfl
      cases hl
      simp [stepOf?, hn]

/-! ### Ascending lists of numbers -/

/-- A list that holds the numbers of a set, ascending. -/
structure Lists (ns : List Nat) (s : Set Nat) : Prop where
  ascending : ns.Pairwise (· < ·)
  mem_iff : ∀ n, n ∈ ns ↔ n ∈ s

theorem mem_insertNumber {m n : Nat} {ns : List Nat} :
    m ∈ insertNumber n ns ↔ m = n ∨ m ∈ ns := by
  induction ns with
  | nil => simp [insertNumber]
  | cons k ns ih => grind [insertNumber]

theorem pairwise_insertNumber {n : Nat} {ns : List Nat} (h : ns.Pairwise (· < ·)) :
    (insertNumber n ns).Pairwise (· < ·) := by
  induction ns with
  | nil => simp [insertNumber]
  | cons k ns ih =>
    obtain ⟨hk, hns⟩ := List.pairwise_cons.1 h
    rw [insertNumber]
    split
    · next hlt =>
      refine List.pairwise_cons.2 ⟨fun m hm => ?_, h⟩
      rcases List.mem_cons.1 hm with rfl | hm
      · exact hlt
      · exact hlt.trans (hk m hm)
    · split
      · exact h
      · refine List.pairwise_cons.2 ⟨fun m hm => ?_, ih hns⟩
        rcases mem_insertNumber.1 hm with rfl | hm
        · omega
        · exact hk m hm

/-- The gaps of an ascending list are the numbers that it lacks between a first one and its last. -/
theorem mem_gaps {next n : Nat} {ns : List Nat} (h : ns.Pairwise (· < ·)) :
    n ∈ gaps next ns ↔ next ≤ n ∧ n ∉ ns ∧ ∃ m ∈ ns, n < m := by
  induction ns generalizing next with
  | nil => simp [gaps]
  | cons k ns ih =>
    obtain ⟨hk, hns⟩ := List.pairwise_cons.1 h
    have hr : n ∈ List.range' next (k - next) ↔ next ≤ n ∧ n < k := by
      rw [List.mem_range'_1]
      omega
    rw [gaps, List.mem_append, hr, ih hns]
    grind

theorem pairwise_gaps {next : Nat} {ns : List Nat} (h : ns.Pairwise (· < ·)) :
    (gaps next ns).Pairwise (· < ·) := by
  induction ns generalizing next with
  | nil => exact List.Pairwise.nil
  | cons k ns ih =>
    obtain ⟨-, hns⟩ := List.pairwise_cons.1 h
    refine List.pairwise_append.2 ⟨List.pairwise_lt_range', ih hns, fun m hm n hn => ?_⟩
    have hk := List.mem_range'_1.1 hm
    have hnext := ((mem_gaps hns).1 hn).1
    omega

theorem gaps_eq_nil {ns : List Nat} {N : Nat} (h : Lists ns (Set.Icc 1 N)) : gaps 1 ns = [] := by
  refine List.eq_nil_iff_forall_not_mem.2 fun n hn => ?_
  obtain ⟨hpos, hnot, m, hm, hlt⟩ := (mem_gaps h.ascending).1 hn
  have hmN := ((h.mem_iff m).1 hm).2
  exact hnot ((h.mem_iff n).2 ⟨hpos, by omega⟩)

/-! ### Steps by their directories -/

theorem group_concat (steps : List (List String × Nat)) (s : List String × Nat) :
    group (steps ++ [s]) =
      (group steps).put s.1 (insertNumber s.2 (((group steps).get? s.1).getD [])) := by
  simp [group]

theorem lists_group (steps : List (List String × Nat)) (dir : List String) :
    Lists (((group steps).get? dir).getD []) {n | (dir, n) ∈ steps} := by
  induction steps using List.reverseRecOn with
  | nil => exact ⟨List.Pairwise.nil, fun n => by simp [group, Keyed.get?]⟩
  | append_singleton steps s ih =>
    obtain ⟨k, m⟩ := s
    rw [group_concat, Keyed.get?_put]
    by_cases hk : k = dir
    · subst hk
      refine ⟨by simpa using pairwise_insertNumber ih.ascending, fun n => ?_⟩
      simp [mem_insertNumber, ih.mem_iff, or_comm]
    · refine ⟨by simpa [hk] using ih.ascending, fun n => ?_⟩
      simp [hk, ih.mem_iff, Ne.symm hk]

theorem distinct_group (steps : List (List String × Nat)) : (group steps).Distinct := by
  induction steps using List.reverseRecOn with
  | nil => simp [group, Keyed.Distinct, Keyed.keys]
  | append_singleton steps s ih =>
    rw [group_concat]
    exact ih.put _ _

/-- The directories that are told are those of the steps. -/
theorem mem_keys_group (steps : List (List String × Nat)) (dir : List String) :
    dir ∈ (group steps).keys ↔ ∃ n, (dir, n) ∈ steps := by
  induction steps using List.reverseRecOn with
  | nil => simp [group, Keyed.keys]
  | append_singleton steps s ih =>
    rw [group_concat, Keyed.mem_keys_put, ih]
    simp [exists_or, Prod.ext_iff]

theorem isDir_of_scan {d : Disk} {root : Path} {suiteName : String} {report : StoreReport}
    (h : scan d root suiteName = .ok report) : d.isDir root := by
  unfold scan at h
  split at h
  · cases h
  · next hroot => simpa using hroot

/-- Directories that come out in the order of their names are reported as they come. -/
theorem scan_of_ordered {d : Disk} {root : Path} (suiteName : String) (h : d.isDir root)
    {files : List (List String)} (found : d.filesBelow root = .ok files)
    (ordered : (group (files.filterMap stepOf?)).Pairwise fun a b => a.1 ≤ b.1) :
    scan d root suiteName = .ok
      ⟨root.text, (group (files.filterMap stepOf?)).map fun g => caseReport suiteName g.1 g.2,
        ((group (files.filterMap stepOf?)).map fun g => g.2.length).sum⟩ := by
  have hsort : (group (files.filterMap stepOf?)).mergeSort (fun a b => !decide (b.1 < a.1)) =
      group (files.filterMap stepOf?) :=
    List.mergeSort_of_pairwise (ordered.imp fun hab => by simpa using hab)
  simp [scan, h, found, hsort, List.sum, List.foldr_map, caseReport]

/-- A scan of a directory reports, in the order of their names, the directories below it with step files, each
under the numbers that these stand for. -/
theorem exists_groups {d : Disk} {root : Path} (h : d.isDir root) :
    ∃ groups : Keyed (List String) (List Nat), groups.keys.Pairwise (· < ·) ∧
      (∀ names, names ∈ groups.keys ↔ ∃ n, n ∈ stepNumbers d (root.location d.cwd ++ names)) ∧
      (∀ g ∈ groups, Lists g.2 (stepNumbers d (root.location d.cwd ++ g.1))) ∧
      ∀ suiteName, scan d root suiteName = .ok
        ⟨root.text, groups.map fun g => caseReport suiteName g.1 g.2,
          (groups.map fun g => g.2.length).sum⟩ := by
  obtain ⟨files, hf, hm⟩ := Disk.mem_filesBelow h
  have hs : ∀ names n, (names, n) ∈ files.filterMap stepOf? ↔
      n ∈ stepNumbers d (root.location d.cwd ++ names) := by
    intro names n
    simp [stepNumbers, stepOf?_eq_some, hm]
  let le (a b : List String × List Nat) : Bool := !decide (b.1 < a.1)
  have le_iff : ∀ a b, le a b = true ↔ a.1 ≤ b.1 := by simp [le]
  let groups := (group (files.filterMap stepOf?)).mergeSort le
  have hp : groups.Perm (group (files.filterMap stepOf?)) := List.mergeSort_perm _ le
  have distinct : Keyed.Distinct groups := (hp.map Prod.fst).nodup_iff.2 (distinct_group _)
  have ordered : groups.Pairwise fun a b => a.1 ≤ b.1 := by
    refine (List.pairwise_mergeSort (fun a b c hab hbc => ?_) (fun a b => ?_) _).imp (le_iff _ _).1
    · exact (le_iff a c).2 (((le_iff a b).1 hab).trans ((le_iff b c).1 hbc))
    · rw [Bool.or_eq_true, le_iff, le_iff]
      exact le_total a.1 b.1
  refine ⟨groups, ?_, fun names => ?_, fun g hg => ?_, fun suiteName => ?_⟩
  · have hkeys : (Keyed.keys groups).Pairwise (· ≤ ·) := List.pairwise_map.2 ordered
    exact (hkeys.and distinct).imp fun h => lt_of_le_of_ne h.1 h.2
  · simp only [← hs, ← mem_keys_group]
    exact (hp.map Prod.fst).mem_iff
  · have hl := lists_group (files.filterMap stepOf?) g.1
    rw [(distinct_group _).get?_of_mem (hp.mem_iff.1 hg)] at hl
    exact ⟨hl.ascending, fun n => (hl.mem_iff n).trans (hs g.1 n)⟩
  · simp [scan, h, hf, List.sum, List.foldr_map, caseReport, groups, le]

/-- A scan of a directory reports once each directory below it with step files, under the numbers that
these stand for. -/
theorem scan_eq {d : Disk} {root : Path} (suiteName : String) (h : d.isDir root) :
    ∃ groups : Keyed (List String) (List Nat), groups.Distinct ∧
      (∀ names, names ∈ groups.keys ↔ ∃ n, n ∈ stepNumbers d (root.location d.cwd ++ names)) ∧
      (∀ g ∈ groups, Lists g.2 (stepNumbers d (root.location d.cwd ++ g.1))) ∧
      scan d root suiteName = .ok
        ⟨root.text, groups.map fun g => caseReport suiteName g.1 g.2,
          (groups.map fun g => g.2.length).sum⟩ := by
  obtain ⟨groups, ascending, nonempty, lists, hs⟩ := exists_groups h
  exact ⟨groups, ascending.imp ne_of_lt, nonempty, lists, hs suiteName⟩

/-- A scan of a directory reports cases whose numbers are those that the files below it stand for. -/
theorem scan_eq_ok {d : Disk} {root : Path} (suiteName : String) (h : d.isDir root) :
    ∃ report, scan d root suiteName = .ok report ∧ ∀ c ∈ report.cases, ∃ names ns,
      c = caseReport suiteName names ns ∧ Lists ns (stepNumbers d (root.location d.cwd ++ names)) := by
  obtain ⟨groups, -, -, hg, hs⟩ := scan_eq suiteName h
  refine ⟨_, hs, fun c hc => ?_⟩
  obtain ⟨g, hm, rfl⟩ := List.mem_map.1 hc
  exact ⟨g.1, g.2, rfl, hg g hm⟩

end StepTrace.Store
