import StepTrace.Proofs.Store.Write

/-!
A store only grows. Whatever the disk is like and whatever is written, a file that is there once keeps its
bytes; a write that succeeds makes one new file, and one that fails makes none.
-/
namespace StepTrace.Store

open Recording

/-- Carries out writes, the first one first. -/
def writeAll (root : Path) (d : Disk) (os : List Offer) : Disk :=
  os.foldl (fun d o => (write root d o).1) d

theorem writeAll_append (root : Path) (d : Disk) (os more : List Offer) :
    writeAll root d (os ++ more) = writeAll root (writeAll root d os) more := by
  simp [writeAll]

theorem grows_write (root : Path) (d : Disk) (o : Offer) : d.Grows (write root d o).1 := by
  have hdirs := (Disk.addsDirs_createDirAll d (caseDir root o.case)).grows
  rcases write_eq root d o with ⟨d', hw, hc⟩ | ⟨f, hw⟩
  · rw [hw, hc.eq_adding]
    exact hdirs.trans (Disk.grows_adding _ _)
  · rw [hw]
    exact hdirs

theorem grows_writeAll (root : Path) (d : Disk) (os : List Offer) : d.Grows (writeAll root d os) := by
  induction os generalizing d with
  | nil => exact Disk.Grows.refl d
  | cons o os ih => exact (grows_write root d o).trans (ih _)

/-! ### One write -/

/-- A write that succeeds makes the file of its step, where nothing was; all other files were there. -/
theorem file_of_write {root : Path} {d d' : Disk} {o : Offer} {p : Path}
    (h : write root d o = (d', .ok p)) :
    p = stepFile root o ∧ d.entry? (p.location d.cwd) = none ∧ d'.read p = .ok (content o.step) ∧
      ∀ l bytes, d'.entry? l = some (.file bytes) ↔
        d.entry? l = some (.file bytes) ∨ l = p.location d.cwd ∧ bytes = content o.step := by
  have hdirs := Disk.addsDirs_createDirAll d (caseDir root o.case)
  rcases write_eq root d o with ⟨d'', hw, hc⟩ | ⟨f, hw⟩
  · obtain ⟨rfl, hp⟩ := Prod.mk.inj (hw.symm.trans h)
    cases hp
    have hnone : d.entry? ((stepFile root o).location d.cwd) = none := by
      have hn := hc.entry?_eq_none
      rw [hdirs.cwd_eq] at hn
      cases he : d.entry? ((stepFile root o).location d.cwd) with
      | none => rfl
      | some e => rw [hdirs.grows.entry?_eq he] at hn; cases hn
    refine ⟨rfl, hnone, hc.read_eq, fun l bytes => ?_⟩
    rw [hc.entry?_file_iff, hdirs.entry?_file_iff, hdirs.cwd_eq]
  · rw [hw] at h
    cases h

/-- A write that fails makes nothing but directories on the way to that of its case. -/
theorem dirs_of_write {root : Path} {d d' : Disk} {o : Offer} {f : Failure}
    (h : write root d o = (d', .error f)) (l : Location) :
    d'.entry? l = d.entry? l ∨
      d.entry? l = none ∧ d'.entry? l = some .dir ∧
        ∃ p ∈ (caseDir root o.case).ancestors, l = p.location d.cwd := by
  rcases write_eq root d o with ⟨d'', hw, -⟩ | ⟨f', hw⟩
  · rw [hw] at h
    cases h
  · obtain ⟨rfl, -⟩ := Prod.mk.inj (hw.symm.trans h)
    obtain ⟨ls, hls, he⟩ := Disk.createDirs_eq d (caseDir root o.case).ancestors
    simp only [Disk.createDirAll, he, Disk.entry?_adding]
    cases hd : d.entry? l with
    | some e => exact Or.inl (Option.some_or ..)
    | none =>
      rw [Option.none_or]
      cases hg : Keyed.get? (ls.map (·, Entry.dir)) l with
      | none => exact Or.inl rfl
      | some e =>
        obtain ⟨l', hl', heq⟩ := List.mem_map.1 (Keyed.mem_of_get? hg)
        cases heq
        exact Or.inr ⟨rfl, rfl, hls l hl'⟩

theorem text_caseDir_ne_empty (root : Path) (key : CaseKey) : (caseDir root key).text ≠ "" := by
  rw [caseDir, List.foldl_append]
  exact Path.text_join_ne_empty _ (isName_segment key.test)

/-- Whatever has the name of the file of a step, the step is refused because of it, and nothing
happens. -/
theorem write_of_exists {root : Path} {d : Disk} {o : Offer} (h : (d.lookup (stepFile root o)).isOk) :
    write root d o = (d, .error (.store (stepFile root o).text existsMessage)) := by
  cases hl : d.lookup (stepFile root o) with
  | error e => rw [hl] at h; cases h
  | ok e =>
    obtain ⟨hr, he⟩ := Disk.lookup_eq hl
    obtain ⟨here, hd, hdir⟩ := Disk.resolve_of_join (isName_fileName o.step.stepNumber)
      (text_caseDir_ne_empty root o.case) hr
    have hc := Disk.createDirAll_of_dir (text_caseDir_ne_empty root o.case) hd hdir
    have hf : d.createFile (stepFile root o) (content o.step) = .error .alreadyExists := by
      simp [Disk.createFile, hr, bind, Except.bind, he]
    simp [write, hc, hf]

/-! ### Any number of writes -/

/-- After any writes to any disk: every file keeps its bytes whatever is written next. A write that
succeeds makes one new file, that of its step, which holds the step; one that fails makes no file and
changes none, and if the file of its step is there already, the failure says so. -/
theorem files_kept (root : Path) (d : Disk) (past rest : List Offer) (o : Offer) :
    let before := writeAll root d past
    let later := writeAll root d (past ++ rest)
    (∀ l bytes, before.entry? l = some (.file bytes) → later.entry? l = some (.file bytes)) ∧
      (∀ p bytes, before.read p = .ok bytes → later.read p = .ok bytes) ∧
      (∀ d' p, write root before o = (d', .ok p) →
        p = stepFile root o ∧ before.entry? (p.location before.cwd) = none ∧
          d'.read p = .ok (content o.step) ∧
          ∀ l bytes, d'.entry? l = some (.file bytes) ↔ before.entry? l = some (.file bytes) ∨
            l = p.location before.cwd ∧ bytes = content o.step) ∧
      (∀ d' f, write root before o = (d', .error f) → ∀ l, d'.entry? l = before.entry? l ∨
        before.entry? l = none ∧ d'.entry? l = some .dir ∧
          ∃ p ∈ (caseDir root o.case).ancestors, l = p.location before.cwd) ∧
      ((before.lookup (stepFile root o)).isOk →
        write root before o = (before, .error (.store (stepFile root o).text existsMessage))) := by
  intro before later
  have grows : before.Grows later := by
    simp only [later, writeAll_append]
    exact grows_writeAll root before rest
  exact ⟨fun _ _ => grows.entry?_eq, fun _ _ => grows.read, fun _ _ => file_of_write,
    fun _ _ => dirs_of_write, write_of_exists⟩

end StepTrace.Store
