import StepTrace.Proofs.Store.Retention

/-!
Which steps a store keeps. Some writes succeed and some fail; the files that a store then holds are those
of the writes that succeeded, one for each, whatever became of the others.
-/
namespace StepTrace

namespace Disk

/-- At a location and below it there is no file. -/
def NoFiles (d : Disk) (top : Location) : Prop :=
  ∀ names bytes, (top ++ names, Entry.file bytes) ∉ d.entries

end Disk

namespace Store

open Recording

/-- The names that lead from the root of a store to the directory of a case. -/
def caseNames (key : CaseKey) : List String := (key.suitePath ++ [key.test]).map segment

theorem stepNames_eq (o : Offer) : stepNames o = caseNames o.case ++ [fileName o.step.stepNumber] := rfl

theorem stepNames_inj {o o' : Offer} : stepNames o = stepNames o' ↔
    caseNames o.case = caseNames o'.case ∧ o.step.stepNumber = o'.step.stepNumber := by
  rw [stepNames_eq, stepNames_eq]
  constructor
  · intro h
    obtain ⟨hd, hf⟩ := List.append_inj' h rfl
    exact ⟨hd, fileName_injective (List.singleton_inj.1 hf)⟩
  · rintro ⟨hd, hn⟩
    rw [hd, hn]

/-- Cases share a directory if its names are the same for both, and only then. -/
theorem caseDir_eq_iff (root : Path) {k₁ k₂ : CaseKey} :
    caseDir root k₁ = caseDir root k₂ ↔ caseNames k₁ = caseNames k₂ := by
  refine ⟨fun h => ?_, caseDir_congr root⟩
  have hl : caseLocation [] root k₁ = caseLocation [] root k₂ := by
    rw [← location_caseDir, ← location_caseDir, h]
  exact List.append_cancel_left hl

/-! ### The writes that succeed -/

/-- The steps that are written when all the given ones are tried in turn. -/
def written (root : Path) (d : Disk) : List Offer → List Offer
  | [] => []
  | o :: os =>
    match write root d o with
    | (d', .ok _) => o :: written root d' os
    | (d', .error _) => written root d' os

theorem written_append (root : Path) (d : Disk) (os more : List Offer) :
    written root d (os ++ more) = written root d os ++ written root (writeAll root d os) more := by
  induction os generalizing d with
  | nil => rfl
  | cons o os ih =>
    cases hw : write root d o with
    | mk d' answer => cases answer <;> simp [written, writeAll, hw, ih]

theorem written_sublist (root : Path) (d : Disk) (os : List Offer) : (written root d os).Sublist os := by
  induction os generalizing d with
  | nil => exact List.Sublist.refl []
  | cons o os ih =>
    rw [written]
    split
    · exact (ih _).cons_cons o
    · exact (ih _).cons o

/-- The files of a store are those of the given steps, and no two of these have the same one. -/
structure Holds (root : Path) (d : Disk) (kept : List Offer) : Prop where
  nodup : (kept.map stepNames).Nodup
  mem_iff : ∀ names bytes, (root.location d.cwd ++ names, Entry.file bytes) ∈ d.entries ↔
    ∃ o ∈ kept, names = stepNames o ∧ bytes = content o.step

namespace Holds

variable {root : Path} {d d' : Disk} {kept : List Offer} {o : Offer}

theorem initial (empty : d.NoFiles (root.location d.cwd)) : Holds root d [] :=
  ⟨List.nodup_nil, fun names bytes => by simpa using empty names bytes⟩

/-- A write that fails leaves the files as they are. -/
theorem write_error {f : Failure} (h : Holds root d kept) (hw : write root d o = (d', .error f)) :
    Holds root d' kept := by
  obtain ⟨e, he, hk | ⟨f', hk⟩⟩ := write_cases root d o
  · cases hk.symm.trans hw
  · cases hk.symm.trans hw
    exact ⟨h.nodup, fun names bytes => by rw [he.cwd_eq, he.mem_file_iff, h.mem_iff]⟩

/-- A write that succeeds adds the file of its step, which was not there before. -/
theorem write_ok {p : Path} (h : Holds root d kept) (hw : write root d o = (d', .ok p)) :
    Holds root d' (kept ++ [o]) := by
  have hcwd : d'.cwd = d.cwd := by
    have hg := grows_write root d o
    rw [hw] at hg
    exact hg.cwd_eq
  obtain ⟨rfl, hnone, -, -⟩ := file_of_write hw
  rw [location_stepFile_eq] at hnone
  have hnew : stepNames o ∉ kept.map stepNames := by
    intro hm
    obtain ⟨o', ho', hn⟩ := List.mem_map.1 hm
    exact Disk.entry?_ne_none_of_mem ((h.mem_iff _ _).2 ⟨o', ho', hn.symm, rfl⟩) hnone
  refine ⟨?_, fun names bytes => ?_⟩
  · simpa using h.nodup.concat hnew
  · obtain ⟨e, he, hk | ⟨f', hk⟩⟩ := write_cases root d o
    · obtain rfl := congrArg Prod.fst (hk.symm.trans hw)
      rw [hcwd, location_stepFile_eq]
      simp [Disk.adding, he.mem_file_iff, h.mem_iff, or_and_right, exists_or]
    · cases hk.symm.trans hw

/-- Any writes leave the files that were there and those of the steps that are written. -/
theorem run (h : Holds root d kept) (os : List Offer) :
    Holds root (writeAll root d os) (kept ++ written root d os) := by
  induction os generalizing d kept with
  | nil => simpa [writeAll, written] using h
  | cons o os ih =>
    cases hw : write root d o with
    | mk d' answer =>
      cases answer with
      | ok p => simpa [writeAll, written, hw] using ih (h.write_ok hw)
      | error f => simpa [writeAll, written, hw] using ih (h.write_error hw)

/-- The step numbers of a directory are those of the steps that it keeps, as far as they can be read. -/
theorem mem_stepNumbers (h : Holds root d kept) {names : List String} {n : Nat} :
    n ∈ stepNumbers d (root.location d.cwd ++ names) ↔
      n < Nat.pow 2 64 ∧ ∃ o ∈ kept, caseNames o.case = names ∧ o.step.stepNumber = n := by
  simp only [stepNumbers, Set.mem_ofPred_eq, List.append_assoc, h.mem_iff]
  constructor
  · rintro ⟨name, bytes, ⟨o, ho, hn, -⟩, hnum⟩
    obtain ⟨rfl, hf⟩ := List.append_inj' hn rfl
    obtain rfl := List.singleton_inj.1 hf
    rw [stepNumber?_fileName, Option.ite_none_right_eq_some] at hnum
    obtain ⟨hsmall, hnumber⟩ := hnum
    obtain rfl := Option.some_inj.1 hnumber
    exact ⟨hsmall, o, ho, rfl, rfl⟩
  · rintro ⟨hsmall, o, ho, rfl, rfl⟩
    exact ⟨_, _, ⟨o, ho, rfl, rfl⟩, by rw [stepNumber?_fileName, if_pos hsmall]⟩

theorem stepNumbers_eq (h : Holds root d kept)
    (small : ∀ o ∈ kept, o.step.stepNumber < Nat.pow 2 64) (names : List String) :
    stepNumbers d (root.location d.cwd ++ names) =
      {n | ∃ o ∈ kept, caseNames o.case = names ∧ o.step.stepNumber = n} := by
  ext n
  rw [h.mem_stepNumbers]
  refine and_iff_right_of_imp ?_
  rintro ⟨o, ho, -, rfl⟩
  exact small o ho

end Holds

/-! ### The root of a store -/

/-- Where the directory of a case below a path leads anywhere, the path is a directory. -/
theorem isDir_of_resolve_caseDir {root : Path} {d : Disk} {key : CaseKey} {l : Location}
    (named : root.text ≠ "") (hr : d.resolve (caseDir root key) = .ok l) : d.isDir root := by
  have fold : ∀ (names : List String) (p : Path) (l : Location), p.text ≠ "" →
      d.resolve (names.foldl (fun dir name => dir.join ⟨segment name⟩) p) = .ok l →
      ∃ here, d.resolve p = .ok here := by
    intro names
    induction names with
    | nil => exact fun _ l _ hr => ⟨l, hr⟩
    | cons name names ih =>
      intro p l hp hr
      obtain ⟨_, hj⟩ := ih _ l (Path.text_join_ne_empty p (isName_segment name)) hr
      obtain ⟨here, hh, -⟩ := Disk.resolve_of_join (isName_segment name) hp hj
      exact ⟨here, hh⟩
  obtain ⟨first, rest, hnames⟩ := List.exists_cons_of_ne_nil (l := key.suitePath ++ [key.test]) (by simp)
  rw [caseDir, hnames, List.foldl_cons] at hr
  obtain ⟨_, hj⟩ := fold rest _ l (Path.text_join_ne_empty root (isName_segment first)) hr
  obtain ⟨here, hh, hdir⟩ := Disk.resolve_of_join (isName_segment first) named hj
  exact Disk.isDir_of_resolve hh hdir

/-- A store in which a step was written has a directory at its root. -/
theorem isDir_of_written {root : Path} {d : Disk} {os : List Offer} (named : root.text ≠ "")
    (h : written root d os ≠ []) : (writeAll root d os).isDir root := by
  induction os generalizing d with
  | nil => exact absurd rfl h
  | cons o os ih =>
    cases hw : write root d o with
    | mk d' answer =>
      cases answer with
      | error f => simpa [writeAll, hw] using ih (by simpa [written, hw] using h)
      | ok p =>
        obtain ⟨rfl, -, hread, -⟩ := file_of_write hw
        have hdir : d'.isDir root := by
          obtain ⟨_, hr, -⟩ := Disk.resolve_of_join (isName_fileName o.step.stepNumber)
            (text_caseDir_ne_empty root o.case) (Disk.lookup_eq (Disk.lookup_of_read hread)).1
          exact isDir_of_resolve_caseDir named hr
        have hg := grows_writeAll root d' os
        simpa [writeAll, hw] using hg.isDir hdir

/-! ### The steps of a recorder -/

theorem sink_fst (root : Path) (d : Disk) (o : Offer) : (sink root d o).1 = (write root d o).1 := by
  cases hw : write root d o with
  | mk d' answer => cases answer <;> simp [sink, hw]

/-- A step is kept by the store if it is written. -/
theorem written_singleton (root : Path) (d : Disk) (o : Offer) :
    written root d [o] = if (sink root d o).2 then [o] else [] := by
  cases hw : write root d o with
  | mk d' answer => cases answer <;> simp [written, sink, hw]

/-- A recorder writes the steps of its history, and counts those that are written. -/
theorem written_run (root : Path) (options : Options) (d : Disk) (h : List Act) :
    let r := (Recorder.fresh options d).run (sink root) h
    r.sink = writeAll root d (offersOf options h) ∧
      r.written = (written root d (offersOf options h)).length := by
  intro r
  have hsink : ∀ h, ((Recorder.fresh options d).run (sink root) h).sink =
      writeAll root d (offersOf options h) := by
    intro h
    simp only [(Recorder.sink_run (sink root) options d h).1, sink_fst, writeAll]
  refine ⟨hsink h, ?_⟩
  simp only [r]
  induction h using List.reverseRecOn with
  | nil => rfl
  | append_singleton h a ih =>
    have hoffered := Recorder.offered_run (sink root) options d h a
    rw [Recorder.run_concat, (Recorder.step_counts (sink root) _ a).1, ih, offersOf_concat,
      written_append, hoffered, hsink]
    cases offerAfter options h a with
    | none => simp [written]
    | some o => simp [written_singleton, apply_ite List.length]

end Store
end StepTrace
