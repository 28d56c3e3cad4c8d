import Mathlib.Data.List.Infix
import Mathlib.Data.List.Nodup
import StepTrace.Proofs.Recording.Activation
import StepTrace.Proofs.Recording.Isolation
import StepTrace.Proofs.Store.AppendOnly
import StepTrace.Proofs.Store.Contiguity

/-!
No step is lost and none is kept twice. If the steps that share a directory belong together, their numbers
tell their files apart; then a store that was empty holds after a history one file for each record, with
the step that was offered for it, and nothing else.
-/
namespace StepTrace

namespace Store

open Recording

/-! ### The file of a step -/

/-- The names that lead from the root of a store to the file of a step. -/
def stepNames (o : Offer) : List String :=
  (o.case.suitePath ++ [o.case.test]).map segment ++ [fileName o.step.stepNumber]

theorem location_stepFile_eq (cwd : Location) (root : Path) (o : Offer) :
    (stepFile root o).location cwd = root.location cwd ++ stepNames o := by
  rw [location_stepFile, caseLocation, stepNames, List.append_assoc]

theorem fileName_injective : Function.Injective fileName := by
  intro m n h
  have hl := congrArg String.toList h
  rw [toList_fileName, toList_fileName] at hl
  have hd : Nat.toDigits 10 m = Nat.toDigits 10 n := by
    simpa [Nat.toString_eq_repr, Nat.toList_repr] using List.append_cancel_right hl
  rw [← Nat.ofDigitChars_ten_toDigits (n := m), hd, Nat.ofDigitChars_ten_toDigits]

/-- No directory of a case is called like the file of a step. -/
theorem fileName_ne_segment (n : Nat) (name : String) : fileName n ≠ segment name := by
  intro h
  have hdot : '.' ∈ (segment name).toList := by
    rw [← h, toList_fileName]
    simp
  exact absurd (mem_segment hdot) (by decide)

/-- Cases whose directories have the same names share a directory. -/
theorem caseDir_congr (root : Path) {k₁ k₂ : CaseKey}
    (h : (k₁.suitePath ++ [k₁.test]).map segment = (k₂.suitePath ++ [k₂.test]).map segment) :
    caseDir root k₁ = caseDir root k₂ := by
  have fold : ∀ names : List String, names.foldl (fun dir name => dir.join ⟨segment name⟩) root =
      (names.map segment).foldl (fun dir s => dir.join ⟨s⟩) root := by
    intro names
    rw [List.foldl_map]
  rw [caseDir, caseDir, fold, fold, h]

/-- The file of a step has a last name that no directory of a case has. -/
theorem not_isPrefix_stepNames (o : Offer) (key : CaseKey) :
    ¬stepNames o <+: (key.suitePath ++ [key.test]).map segment := by
  intro h
  have hm : fileName o.step.stepNumber ∈ (key.suitePath ++ [key.test]).map segment :=
    h.subset (List.mem_append_right _ List.mem_cons_self)
  obtain ⟨name, -, hn⟩ := List.mem_map.1 hm
  exact fileName_ne_segment _ _ hn.symm

/-- The file of a step is on the way to that of another only if both are the same file: their cases share
a directory, and their numbers are equal. -/
theorem eq_of_stepNames_prefix (root : Path) {o o' : Offer} (h : stepNames o' <+: stepNames o) :
    caseDir root o'.case = caseDir root o.case ∧ o'.step.stepNumber = o.step.stepNumber := by
  rcases List.prefix_concat_iff.1 h with he | hp
  · obtain ⟨hd, hf⟩ := List.append_inj' he rfl
    exact ⟨caseDir_congr root hd, fileName_injective (List.singleton_inj.1 hf)⟩
  · exact absurd hp (not_isPrefix_stepNames o' o.case)

/-! ### What is asked of a history -/

/-- A file is at the root of a store, at a directory on the way to the file of a step, or there. -/
def FileInWay (root : Path) (d : Disk) (o : Offer) : Prop :=
  ∃ names ∈ (stepNames o).inits, d.IsFile (root.location d.cwd ++ names)

instance (root : Path) (d : Disk) (o : Offer) : Decidable (FileInWay root d o) :=
  inferInstanceAs (Decidable (∃ _ ∈ _, _))

/-- A record whose case has the directory of an earlier record belongs together with it. -/
def Apart (root : Path) (options : Options) (past : List Act) (b : Act) : Prop :=
  ∀ before a between, past = before ++ a :: between → a.op.isRecord → b.op.isRecord →
    caseDir root (keyAfter options (pastOf before a.stream)) =
      caseDir root (keyAfter options (pastOf past b.stream)) →
    Together options before a between b

instance (root : Path) (options : Options) (past : List Act) (b : Act) :
    Decidable (Apart root options past b) :=
  decidable_of_iff (∀ x ∈ splits past, x.2.1.op.isRecord → b.op.isRecord →
      caseDir root (keyAfter options (pastOf x.1 x.2.1.stream)) =
        caseDir root (keyAfter options (pastOf past b.stream)) →
      Together options x.1 x.2.1 x.2.2 b)
    ⟨fun h _ _ _ he => h _ (mem_splits.2 he), fun h _ hx => h _ _ _ (mem_splits.1 hx)⟩

variable {root : Path} {options : Options} {d : Disk} {h : List Act}

/-- What holds of a recorder and its store after a history: nothing was dropped, and the files of the
store are those of the steps. -/
structure Retained (root : Path) (options : Options) (d : Disk) (h : List Act) : Prop where
  cwd_eq : (after root options d h).cwd = d.cwd
  dropped : ((Recorder.fresh options d).run (sink root) h).dropped = 0
  written : ((Recorder.fresh options d).run (sink root) h).written = (offersOf options h).length
  nodup : ((offersOf options h).map stepNames).Nodup
  read_eq : ∀ o ∈ offersOf options h,
    (after root options d h).read (stepFile root o) = .ok (content o.step)
  file_iff : ∀ names bytes,
    Disk.entry? (after root options d h) (root.location d.cwd ++ names) = some (.file bytes) ↔
      ∃ o ∈ offersOf options h, names = stepNames o ∧ bytes = content o.step

namespace Retained

theorem initial (empty : ∀ names, ¬d.IsFile (root.location d.cwd ++ names)) :
    Retained root options d [] := by
  refine ⟨rfl, rfl, rfl, List.nodup_nil, by simp [offersOf, eachFrom], fun names bytes => ?_⟩
  have hf : Disk.entry? (after root options d []) (root.location d.cwd ++ names) ≠
      some (.file bytes) := fun hf => empty names ⟨bytes, hf⟩
  simpa [offersOf, eachFrom] using hf

/-- No file of an earlier step is on the way to that of the next. -/
theorem not_isFile (hr : Retained root options d h) {a : Act} {o : Offer}
    (ho : offerAfter options h a = some o) (apart : Apart root options h a) {names : List String}
    (hn : names ∈ (stepNames o).inits) :
    ¬(after root options d h).IsFile (root.location d.cwd ++ names) := by
  rintro ⟨bytes, hf⟩
  obtain ⟨o', ho', rfl, -⟩ := (hr.file_iff names bytes).1 hf
  obtain ⟨hdir, hnumber⟩ := eq_of_stepNames_prefix root ((List.mem_inits _ _).1 hn)
  obtain ⟨before, b, between, rfl, hb⟩ := exists_of_mem_offersOf ho'
  obtain ⟨ha, hkey, hnum⟩ := offerAfter_eq_some ho
  obtain ⟨hb', hkey', hnum'⟩ := offerAfter_eq_some hb
  rw [hkey, hkey'] at hdir
  have hlt := numberAfter_lt_of_together hb' (apart before b between rfl hb' ha hdir)
  omega

/-- The next step is written. -/
theorem creates (hr : Retained root options d h) {a : Act} {o : Offer}
    (ho : offerAfter options h a = some o) (apart : Apart root options h a)
    (refused : RefusedOnlyIf root options d (fun d' o _ => FileInWay root d' o) h a) :
    ∃ d', write root (after root options d h) o = (d', .ok (stepFile root o)) := by
  rcases write_eq root (after root options d h) o with ⟨d', hw, -⟩ | ⟨f, hw⟩
  · exact ⟨d', hw⟩
  · have hdirs := Disk.addsDirs_createDirAll (after root options d h) (caseDir root o.case)
    obtain ⟨names, hn, bytes, hf⟩ := refused o ho _ (by simp only [refusal?, hw]; rfl)
    rw [hdirs.cwd_eq, hr.cwd_eq, hdirs.entry?_file_iff] at hf
    exact absurd ⟨bytes, hf⟩ (hr.not_isFile ho apart hn)

/-- One act loses no step. -/
theorem step (hr : Retained root options d h) {a : Act} (apart : Apart root options h a)
    (refused : RefusedOnlyIf root options d (fun d' o _ => FileInWay root d' o) h a) :
    Retained root options d (h ++ [a]) := by
  have hoffered := Recorder.offered_run (sink root) options d h a
  have hcounts := Recorder.step_counts (sink root) ((Recorder.fresh options d).run (sink root) h) a
  have hafter := after_concat root options d h a
  have hoffers := offersOf_concat options h a
  simp only [hoffered, ← Recorder.run_concat] at hcounts
  cases ho : offerAfter options h a with
  | none =>
    simp only [ho, Option.map_none, reduceCtorEq, if_false, Option.toList_none, List.append_nil,
      Nat.add_zero] at hcounts hafter hoffers
    obtain ⟨hcwd, hdropped, hwritten, hnodup, hread, hfile⟩ := hr
    exact ⟨hafter ▸ hcwd, hcounts.2.trans hdropped, by rw [hcounts.1, hoffers, hwritten],
      hoffers ▸ hnodup, by rw [hoffers, hafter]; exact hread, by rw [hoffers, hafter]; exact hfile⟩
  | some o =>
    obtain ⟨d', hw⟩ := hr.creates ho apart refused
    obtain ⟨-, -, hread, hfile⟩ := file_of_write hw
    have hgrows : (after root options d h).Grows d' := by
      have hg := grows_write root (after root options d h) o
      rwa [hw] at hg
    have hkept : sink root (after root options d h) o = (d', true) := by simp [sink, hw]
    have hsink : ((Recorder.fresh options d).run (sink root) h).sink = after root options d h := rfl
    simp only [ho, hsink, hkept, Option.map_some, if_false, if_true, Option.some.injEq,
      Bool.true_eq_false, Option.toList_some, Nat.add_zero] at hcounts hafter hoffers
    refine ⟨?_, hcounts.2.trans hr.dropped, ?_, ?_, ?_, ?_⟩
    · rw [hafter, hgrows.cwd_eq, hr.cwd_eq]
    · rw [hcounts.1, hoffers, hr.written, List.length_append, List.length_singleton]
    · rw [hoffers, List.map_append]
      refine List.nodup_append.2 ⟨hr.nodup, by simp, ?_⟩
      rintro names hm _ hs rfl
      obtain ⟨o', ho', hn⟩ := List.mem_map.1 hm
      have hf := (hr.file_iff names _).2 ⟨o', ho', hn.symm, rfl⟩
      refine hr.not_isFile ho apart ?_ ⟨_, hf⟩
      rw [List.map_singleton, List.mem_singleton] at hs
      exact (List.mem_inits _ _).2 (hs ▸ List.prefix_rfl)
    · rw [hoffers, hafter]
      intro o' hm
      rcases List.mem_append.1 hm with hm | hm
      · exact hgrows.read (hr.read_eq o' hm)
      · rw [List.mem_singleton.1 hm]
        exact hread
    · intro names bytes
      rw [hafter, hfile, hr.file_iff, hoffers, hr.cwd_eq, location_stepFile_eq]
      simp [or_and_right, exists_or]

/-- A whole history loses no step. -/
theorem run (empty : ∀ names, ¬d.IsFile (root.location d.cwd ++ names))
    (apart : Throughout (Apart root options) h)
    (refused : Throughout (RefusedOnlyIf root options d fun d' o _ => FileInWay root d' o) h) :
    Retained root options d h := by
  induction h using List.reverseRecOn with
  | nil => exact initial empty
  | append_singleton h a ih =>
    obtain ⟨ah, aa⟩ := throughout_concat.1 apart
    obtain ⟨rh, ra⟩ := throughout_concat.1 refused
    exact (ih ah rh).step aa ra

end Retained

/-- A store that holds no file takes every step of a history, if records that share the directory of a
case belong together and a step is refused only because of a file. There is one step for each record, no
two have the same file, the file of a step holds that step, and the store holds no other file. -/
theorem retained_run (root : Path) (options : Options) (d : Disk) (h : List Act)
    (empty : ∀ names, ¬d.IsFile (root.location d.cwd ++ names))
    (apart : Throughout (Apart root options) h)
    (refused : Throughout (RefusedOnlyIf root options d fun d' o _ => FileInWay root d' o) h) :
    let r := (Recorder.fresh options d).run (sink root) h
    let offers := ((Recorder.fresh options d).offerings (sink root) h).map Offering.offer
    let fileOf (o : Offer) := (stepFile root o).location d.cwd
    r.dropped = 0 ∧ r.written = offers.length ∧
      offers.length = h.countP (fun a => a.op.isRecord) ∧ (offers.map fileOf).Nodup ∧
      (∀ o ∈ offers, r.sink.read (stepFile root o) = .ok (content o.step)) ∧
      ∀ names bytes, r.sink.entry? (root.location d.cwd ++ names) = some (.file bytes) ↔
        ∃ o ∈ offers, root.location d.cwd ++ names = fileOf o ∧ bytes = content o.step := by
  intro r offers fileOf
  have hr := Retained.run empty apart refused
  have hoffers : offers = offersOf options h := Recorder.map_offerings (sink root) options d h
  have hfile : fileOf = (root.location d.cwd ++ ·) ∘ stepNames := by
    funext o
    exact location_stepFile_eq d.cwd root o
  rw [hoffers, hfile, ← List.map_map]
  refine ⟨hr.dropped, hr.written, length_offersOf options h, ?_, hr.read_eq, fun names bytes => ?_⟩
  · exact List.Nodup.map (List.append_right_injective _) hr.nodup
  · exact (hr.file_iff names bytes).trans (by simp)

/-- Two streams: one records in a case twice, the other once in a case of a nested suite, and both
outside all cases. -/
def mixedHistory : List Act :=
  let call : Operation := .record
    { line := 1, column := 0, bindings := .ofReads [], returnPosition := false, file := none,
      ts := some 0 }
  [ ⟨0, "a", .startCase "t" (some ["S"])⟩, ⟨0, "b", call⟩, ⟨0, "a", call⟩,
    ⟨0, "b", .startCase "u" (some ["S", "t"])⟩, ⟨0, "a", call⟩, ⟨0, "b", call⟩, ⟨0, "a", .endCase⟩,
    ⟨0, "a", call⟩ ]

theorem retained_run_mixed :
    let root : Path := ⟨"store"⟩
    let r := (Recorder.fresh {} ({} : Disk)).run (sink root) mixedHistory
    (∀ names, ¬({} : Disk).IsFile (root.location [] ++ names)) ∧
      Throughout (Apart root {}) mixedHistory ∧
      Throughout (RefusedOnlyIf root {} {} fun d' o _ => FileInWay root d' o) mixedHistory ∧
      r.dropped = 0 ∧ r.written = 5 := by
  intro root r
  have empty : ∀ names, ¬({} : Disk).IsFile (root.location [] ++ names) := by
    rintro names ⟨bytes, hf⟩
    unfold Disk.entry? at hf
    split at hf <;> cases hf
  have apart : Throughout (Apart root {}) mixedHistory := by decide +kernel
  have refused : Throughout (RefusedOnlyIf root {} {} fun d' o _ => FileInWay root d' o)
      mixedHistory := by decide +kernel
  obtain ⟨hd, hw, hl, -⟩ := retained_run root {} {} mixedHistory empty apart refused
  exact ⟨empty, apart, refused, hd, hw.trans hl⟩

end Store
end StepTrace
