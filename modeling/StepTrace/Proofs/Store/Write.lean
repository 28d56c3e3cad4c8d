import StepTrace.Proofs.Store.Scan
import StepTrace.Store.Write

/-!
What writing a step does to a store: either its number is new in the directory of its case, or no file is
new at all. The names of files and directories are ordinary names, whatever suites and tests are called.
-/
namespace StepTrace.Store

open Recording

/-! ### Names of directories and files -/

theorem mem_collapse {c : Char} {inRun : Bool} {cs : List Char} (h : c ∈ collapse inRun cs) :
    isUnsafe c = false := by
  have hu : isUnsafe '_' = false := by decide
  induction cs generalizing inRun with
  | nil => simp [collapse] at h
  | cons b cs ih =>
    rw [collapse] at h
    split at h
    · split at h
      · exact ih h
      · rcases List.mem_cons.1 h with rfl | h
        · exact hu
        · exact ih h
    · next hb =>
      rcases List.mem_cons.1 h with rfl | h
      · simpa using hb
      · exact ih h

theorem mem_segment {c : Char} {name : String} (h : c ∈ (segment name).toList) :
    isUnsafe c = false := by
  unfold segment at h
  split at h
  · have hc : c = '_' := by simpa using h
    subst hc
    decide
  · exact mem_collapse (by simpa using h)

/-- The directory name for a name is an ordinary name: it is not empty and holds neither a dot nor a
slash. -/
theorem isName_segment (name : String) : Path.IsName (segment name) := by
  have dot : '.' ∉ (segment name).toList := fun h => absurd (mem_segment h) (by decide)
  refine ⟨?_, ?_, ?_, fun h => absurd (mem_segment h) (by decide)⟩
  · unfold segment
    split
    · decide
    · next hne =>
      intro h
      exact hne (by simpa using congrArg String.toList h)
  · intro h
    exact dot (h ▸ by decide)
  · intro h
    exact dot (h ▸ by decide)

theorem mem_toString {c : Char} {n : Nat} (h : c ∈ (toString n).toList) : c.isDigit := by
  rw [Nat.toString_eq_repr, Nat.toList_repr] at h
  exact Nat.isDigit_of_mem_toDigits (by decide) (by decide) h

/-- The name of the file of a step. -/
def fileName (n : Nat) : String := toString n ++ ".json"

theorem toList_fileName (n : Nat) :
    (fileName n).toList = (toString n).toList ++ ['.', 'j', 's', 'o', 'n'] := by
  simp only [fileName, String.toList_append]
  rfl

theorem isName_fileName (n : Nat) : Path.IsName (fileName n) := by
  have hj : 'j' ∈ (fileName n).toList := by simp [toList_fileName]
  refine ⟨?_, ?_, ?_, ?_⟩
  · intro h
    exact absurd (h ▸ hj) (by decide)
  · intro h
    exact absurd (h ▸ hj) (by decide)
  · intro h
    exact absurd (h ▸ hj) (by decide)
  · rw [toList_fileName]
    intro h
    rcases List.mem_append.1 h with h | h
    · exact absurd (mem_toString h) (by decide)
    · exact absurd h (by decide)

/-! ### The number in a file name -/

theorem splitName_fileName (n : Nat) : Path.splitName (fileName n) = (toString n, some "json") := by
  have hr : (fileName n).toList.reverse = ['n', 'o', 's', 'j', '.'] ++ (toString n).toList.reverse := by
    simp [toList_fileName]
  have hne : (toString n).toList.reverse ≠ [] := by
    simp [Nat.toList_repr]
  have hs : String.ofList ['j', 's', 'o', 'n'] = "json" := rfl
  simp [Path.splitName, hr, List.takeWhile, hs, Nat.repr_eq_ofList_toDigits]

theorem number?_toString (n : Nat) :
    number? (toString n) = if n < Nat.pow 2 64 then some n else none := by
  have hd : ∀ c ∈ Nat.toDigits 10 n, c.isDigit := fun c hc =>
    Nat.isDigit_of_mem_toDigits (by decide) (by decide) hc
  have hv : (Nat.toDigits 10 n).foldl (fun n c => n * 10 + (c.toNat - 48)) 0 = n := by
    have h := Nat.ofDigitChars_ten_toDigits (n := n)
    rw [Nat.ofDigitChars_eq_foldl] at h
    simpa [Nat.mul_comm] using h
  obtain ⟨c, cs, hc⟩ := List.exists_cons_of_ne_nil (Nat.toDigits_ne_nil (b := 10) (n := n))
  rw [hc, List.forall_mem_cons] at hd
  have hplus : c ≠ '+' := fun h => absurd (h ▸ hd.1) (by decide)
  have hall : ¬∃ x, x ∈ cs ∧ x.isDigit = false := by grind
  have hval : cs.foldl (fun n c => n * 10 + (c.toNat - 48)) (c.toNat - 48) = n := by
    simpa [hc] using hv
  simp [number?, hc, hplus, hd.1, hall, hval]

/-- The name of the file of a step gives its number, unless that is too large to be read. -/
theorem stepNumber?_fileName (n : Nat) :
    stepNumber? (fileName n) = if n < Nat.pow 2 64 then some n else none := by
  rw [stepNumber?, splitName_fileName]
  exact number?_toString n

/-! ### What a write leaves -/

/-- Where the steps of a case are. -/
def caseLocation (cwd : Location) (root : Path) (key : CaseKey) : Location :=
  root.location cwd ++ (key.suitePath ++ [key.test]).map segment

theorem location_caseDir (cwd : Location) (root : Path) (key : CaseKey) :
    (caseDir root key).location cwd = caseLocation cwd root key := by
  have fold : ∀ (names : List String) (dir : Path),
      (names.foldl (fun dir name => dir.join ⟨segment name⟩) dir).location cwd =
        dir.location cwd ++ names.map segment := by
    intro names
    induction names with
    | nil => simp
    | cons name names ih =>
      intro dir
      simp [ih, Path.location_join cwd dir (isName_segment name)]
  exact fold _ root

theorem location_stepFile (cwd : Location) (root : Path) (o : Offer) :
    (stepFile root o).location cwd = caseLocation cwd root o.case ++ [fileName o.step.stepNumber] := by
  rw [← location_caseDir]
  exact Path.location_join cwd _ (isName_fileName _)

/-- A write creates the directories above its step, and then either the file of the step or nothing. -/
theorem write_eq (root : Path) (d : Disk) (o : Offer) :
    let e := (d.createDirAll (caseDir root o.case)).1
    (∃ d', write root d o = (d', .ok (stepFile root o)) ∧
        e.Creates (stepFile root o) (content o.step) d') ∨
      ∃ f, write root d o = (e, .error f) := by
  unfold write
  cases hd : d.createDirAll (caseDir root o.case) with
  | mk e made =>
    cases made with
    | error f => exact Or.inr ⟨_, rfl⟩
    | ok _ =>
      cases hf : e.createFile (stepFile root o) (content o.step) with
      | ok d' =>
        left
        simp [hf, Disk.creates_createFile hf]
      | error f =>
        right
        cases f <;> simp [hf]

/-- A write adds directories, and then either the file of its step or nothing. -/
theorem write_cases (root : Path) (d : Disk) (o : Offer) :
    ∃ e, d.AddsDirs e ∧
      (write root d o =
          (e.adding [((stepFile root o).location d.cwd, .file (content o.step))],
            .ok (stepFile root o)) ∨
        ∃ f, write root d o = (e, .error f)) := by
  have hdirs := Disk.addsDirs_createDirAll d (caseDir root o.case)
  refine ⟨_, hdirs, ?_⟩
  rcases write_eq root d o with ⟨d', hw, hc⟩ | hf
  · left
    rw [hw, hc.eq_adding, hdirs.cwd_eq]
  · exact Or.inr hf

theorem stepNumbers_of_addsDirs {d d' : Disk} (h : d.AddsDirs d') (dir : Location) :
    stepNumbers d' dir = stepNumbers d dir := by
  simp only [stepNumbers, h.mem_file_iff]

theorem mem_stepNumbers_adding {d : Disk} {dir dir' : Location} {name : String} {bytes : ByteArray}
    {n : Nat} :
    n ∈ stepNumbers (d.adding [(dir' ++ [name], .file bytes)]) dir ↔
      n ∈ stepNumbers d dir ∨ dir = dir' ∧ stepNumber? name = some n := by
  constructor
  · rintro ⟨name', bytes', hm, hn⟩
    rcases List.mem_append.1 hm with hm | hm
    · exact Or.inl ⟨name', bytes', hm, hn⟩
    · obtain ⟨hl, -⟩ := Prod.mk.inj (List.mem_singleton.1 hm)
      obtain ⟨rfl, he⟩ := List.append_inj' hl rfl
      cases he
      exact Or.inr ⟨rfl, hn⟩
  · rintro (⟨name', bytes', hm, hn⟩ | ⟨rfl, hn⟩)
    · exact ⟨name', bytes', List.mem_append_left _ hm, hn⟩
    · exact ⟨name, bytes, List.mem_append_right _ List.mem_cons_self, hn⟩

theorem cwd_sink (root : Path) (d : Disk) (o : Offer) : (sink root d o).1.cwd = d.cwd := by
  obtain ⟨e, he, hw | ⟨f, hw⟩⟩ := write_cases root d o
  · simpa [sink, hw, Disk.adding] using he.cwd_eq
  · simpa [sink, hw] using he.cwd_eq

/-- How a step is refused, if it is: what the store is like then, and why. -/
def refusal? (root : Path) (d : Disk) (o : Offer) : Option (Disk × Failure) :=
  match write root d o with
  | (_, .ok _) => none
  | (d', .error f) => some (d', f)

/-- Whether the file of a step is there. -/
def HasFile (root : Path) (d : Disk) (o : Offer) : Prop := (d.read (stepFile root o)).isOk

instance (root : Path) (d : Disk) (o : Offer) : Decidable (HasFile root d o) :=
  inferInstanceAs (Decidable (_ = true))

theorem mem_of_hasFile {root : Path} {d : Disk} {o : Offer} (h : HasFile root d o) :
    ∃ bytes, (caseLocation d.cwd root o.case ++ [fileName o.step.stepNumber], Entry.file bytes) ∈
      d.entries := by
  unfold HasFile at h
  cases hr : d.read (stepFile root o) with
  | error e => simp [hr, Except.isOk, Except.toBool] at h
  | ok bytes => exact ⟨bytes, location_stepFile d.cwd root o ▸ Disk.mem_of_read hr⟩

/-- If a step is refused only because its file is there, then the step numbers of a store are those
before it and that of the step. Numbers that are too large to be read do not count. -/
theorem mem_stepNumbers_sink {root : Path} {d : Disk} {o : Offer}
    (refused : ∀ x ∈ refusal? root d o, HasFile root x.1 o) (dir : Location) (n : Nat) :
    n ∈ stepNumbers (sink root d o).1 dir ↔ n ∈ stepNumbers d dir ∨
      dir = caseLocation d.cwd root o.case ∧ n = o.step.stepNumber ∧ n < Nat.pow 2 64 := by
  have hnumber : stepNumber? (fileName o.step.stepNumber) = some n ↔
      n = o.step.stepNumber ∧ n < Nat.pow 2 64 := by
    rw [stepNumber?_fileName]
    grind
  obtain ⟨e, he, hw | ⟨f, hw⟩⟩ := write_cases root d o
  · simp only [sink, hw, location_stepFile]
    rw [mem_stepNumbers_adding, stepNumbers_of_addsDirs he, hnumber]
  · obtain ⟨bytes, hm⟩ := mem_of_hasFile (refused (e, f) (by simp [refusal?, hw]))
    rw [he.cwd_eq, he.mem_file_iff] at hm
    simp only [sink, hw, stepNumbers_of_addsDirs he]
    constructor
    · exact Or.inl
    · rintro (hn | ⟨rfl, hn⟩)
      · exact hn
      · exact ⟨_, bytes, hm, hnumber.2 hn⟩

end StepTrace.Store
