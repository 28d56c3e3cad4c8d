import StepTrace.Proofs.Files.Components
import StepTrace.Proofs.Store.Written

/-!
A store stays below its root, whatever suites and tests are called. Each name becomes one ordinary name of a
directory, so nothing is created elsewhere; and the file of a step, which is called as no directory is, never
stands where the directory of a case goes.
-/
namespace StepTrace.Store

open Recording

variable {root : Path} {d d' : Disk} {o : Offer} {key : CaseKey}

theorem mem_caseNames {s : String} (h : s ∈ caseNames key) :
    Path.IsName s ∧ ∀ c ∈ s.toList, isUnsafe c = false := by
  obtain ⟨name, -, rfl⟩ := List.mem_map.1 h
  exact ⟨isName_segment name, fun _ => mem_segment⟩

theorem mem_stepNames {s : String} (h : s ∈ stepNames o) : Path.IsName s := by
  rcases List.mem_append.1 h with h | h
  · exact (mem_caseNames h).1
  · rw [List.mem_singleton.1 h]
    exact isName_fileName _

/-- The directory of a case is the root with one more component for each name. -/
theorem components_caseDir (root : Path) (key : CaseKey) :
    (caseDir root key).components = root.components ++ (caseNames key).map .name := by
  have fold : ∀ (names : List String) (dir : Path),
      (names.foldl (fun dir name => dir.join ⟨segment name⟩) dir).components =
        dir.components ++ (names.map segment).map .name := by
    intro names
    induction names with
    | nil => simp
    | cons name names ih =>
      intro dir
      simp [ih, Path.components_join dir (isName_segment name)]
  exact fold _ root

theorem components_stepFile (root : Path) (o : Offer) :
    (stepFile root o).components = root.components ++ (stepNames o).map .name := by
  have hjoin := Path.components_join (caseDir root o.case) (isName_fileName o.step.stepNumber)
  rw [components_caseDir, List.append_assoc] at hjoin
  rw [stepNames_eq, List.map_append]
  exact hjoin

theorem not_isPrefix_stepFile (root : Path) (o : Offer) (key : CaseKey) :
    ¬(stepFile root o).components <+: (caseDir root key).components := by
  rw [components_stepFile, components_caseDir, List.prefix_append_right_inj]
  intro h
  exact not_isPrefix_stepNames o key ((List.prefix_map_iff_of_injective fun _ _ => by simp).1 h)

/-- A path above the directory of a case is one above the root, or it goes on from there by ordinary names. -/
theorem location_of_mem_ancestors {q : Path} (h : q ∈ (caseDir root key).ancestors)
    (cwd : Location) :
    (∃ cs, cs <+: root.components ∧ q.location cwd = cs.foldl Path.Component.target cwd) ∨
      ∃ names, names ≠ [] ∧ names <+: caseNames key ∧
        q.location cwd = root.location cwd ++ names := by
  have hp := Path.components_of_mem_ancestors h
  rw [components_caseDir] at hp
  rcases Path.prefix_append_cases hp with hp | ⟨m, hne, hm, hq⟩
  · exact Or.inl ⟨_, hp, rfl⟩
  · obtain ⟨names, hn, rfl⟩ := List.prefix_map_iff.1 hm
    refine Or.inr ⟨names, by simpa using hne, hn, ?_⟩
    rw [Path.location, hq, List.foldl_append, Path.foldl_target_names]
    rfl

/-- A file that was written is not on the way to the directory of any case: what leads to the root are
directories, and below the root they have other names. -/
theorem not_on_way_of_write {p q : Path} (hw : write root d o = (d', .ok p))
    (hq : q ∈ (caseDir root key).ancestors) :
    q.location d.cwd ≠ (stepFile root o).location d.cwd := by
  have hdirs := Disk.addsDirs_createDirAll d (caseDir root o.case)
  rcases write_eq root d o with ⟨d'', -, hc⟩ | ⟨f, hf⟩
  · intro he
    rcases location_of_mem_ancestors hq d.cwd with ⟨cs, ⟨rest, hcs⟩, hl⟩ | ⟨names, hne, hn, hl⟩
    · have hrest : ∃ c more, (stepFile root o).components = cs ++ c :: more := by
        rw [components_stepFile, ← hcs, List.append_assoc]
        cases hm : rest ++ (stepNames o).map Path.Component.name with
        | nil => simp [stepNames_eq] at hm
        | cons c more => exact ⟨c, more, rfl⟩
      obtain ⟨c, more, hcs'⟩ := hrest
      have hdir := Disk.dir_of_resolve hc.resolve_eq hcs'
      have hnone := hc.entry?_eq_none
      rw [hdirs.cwd_eq] at hdir hnone
      rw [← he, hl, hdir] at hnone
      cases hnone
    · rw [hl, location_stepFile_eq] at he
      exact not_isPrefix_stepNames o key (List.append_cancel_left he ▸ hn)
  · cases hf.symm.trans hw

/-! ### Any number of writes -/

/-- Every file that writes have made is that of one of their steps, and was written. -/
theorem file_of_writeAll {os : List Offer} {l : Location} {bytes : ByteArray}
    (h : Disk.entry? (writeAll root d os) l = some (.file bytes)) :
    d.entry? l = some (.file bytes) ∨
      ∃ o ∈ written root d os, l = (stepFile root o).location d.cwd ∧ bytes = content o.step := by
  induction os generalizing d with
  | nil => exact Or.inl h
  | cons o os ih =>
    have hcwd := (grows_write root d o).cwd_eq
    cases hw : write root d o with
    | mk d' answer =>
      rw [hw] at hcwd
      simp only [writeAll, List.foldl_cons, hw] at h
      have hrest := ih h
      rw [hcwd] at hrest
      cases answer with
      | error f =>
        simp only [written, hw]
        refine hrest.imp_left fun hf => ?_
        rcases dirs_of_write hw l with hl | ⟨-, hl, -⟩
        · rwa [← hl]
        · cases hl.symm.trans hf
      | ok p =>
        obtain ⟨rfl, -, -, hfile⟩ := file_of_write hw
        simp only [written, hw, List.exists_mem_cons_iff]
        rcases hrest with hf | hm
        · exact ((hfile l bytes).1 hf).imp_right Or.inl
        · exact Or.inr (Or.inr hm)

/-- No step that is written has its file on the way to the directory of a case. -/
theorem not_on_way_of_written {os : List Offer} {q : Path} (ho : o ∈ written root d os)
    (hq : q ∈ (caseDir root key).ancestors) :
    q.location d.cwd ≠ (stepFile root o).location d.cwd := by
  induction os generalizing d with
  | nil => cases ho
  | cons o' os ih =>
    have hcwd := (grows_write root d o').cwd_eq
    cases hw : write root d o' with
    | mk d' answer =>
      rw [hw] at hcwd
      have hrest : o ∈ written root d' os → _ := fun hm => hcwd ▸ ih hm
      cases answer with
      | error f => exact hrest (by simpa [written, hw] using ho)
      | ok p =>
        simp only [written, hw, List.mem_cons] at ho
        rcases ho with rfl | ho
        · exact not_on_way_of_write hw hq
        · exact hrest ho

/-- Whatever the root, the suites and the test are called: the directory of a case is the root with one more
component for each suite and one for the test, and these are ordinary names without any character that means
something in a path. Whatever is written to whatever disk, a new file lies below the root by ordinary names.
The file of a step is neither the directory of a case nor above it, so where a directory has to be for a
case there is no file, unless it was there before all writes. -/
theorem confined (root : Path) (key : CaseKey) :
    (caseDir root key).components = root.components ++ (caseNames key).map .name ∧
      (caseNames key).length = key.suitePath.length + 1 ∧
      (∀ s ∈ caseNames key, Path.IsName s ∧ ∀ c ∈ s.toList, isUnsafe c = false) ∧
      (∀ d os l bytes, Disk.entry? (writeAll root d os) l = some (.file bytes) →
        d.entry? l = some (.file bytes) ∨ ∃ below, below ≠ [] ∧ (∀ s ∈ below, Path.IsName s) ∧
          l = root.location d.cwd ++ below) ∧
      (∀ o, ¬(stepFile root o).components <+: (caseDir root key).components) ∧
      ∀ d os, ∀ q ∈ (caseDir root key).ancestors, ∀ bytes,
        Disk.entry? (writeAll root d os) (q.location d.cwd) = some (.file bytes) →
          d.entry? (q.location d.cwd) = some (.file bytes) := by
  refine ⟨components_caseDir root key, by simp [caseNames], fun _ => mem_caseNames, ?_,
    fun o => not_isPrefix_stepFile root o key, ?_⟩
  · intro d os l bytes hf
    refine (file_of_writeAll hf).imp_right ?_
    rintro ⟨o, -, hl, -⟩
    exact ⟨stepNames o, by simp [stepNames_eq], fun _ => mem_stepNames,
      hl.trans (location_stepFile_eq d.cwd root o)⟩
  · intro d os q hq bytes hf
    rcases file_of_writeAll hf with hf | ⟨o, ho, hl, -⟩
    · exact hf
    · exact absurd hl (not_on_way_of_written ho hq)

end StepTrace.Store
