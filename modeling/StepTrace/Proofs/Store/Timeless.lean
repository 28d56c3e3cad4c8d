import Mathlib.Data.List.Forall2
import StepTrace.Proofs.Recording.Appended
import StepTrace.Store.Write

/-!
A store does not look at the time of a step. Whether a file can be created is told by which files and
directories there are, not by what files hold; so stores that hold the same steps, but for their times,
take the next step alike.
-/
namespace StepTrace

/-- Results that are alike: one fault, or values that are. -/
inductive Likewise {ε α : Type} (Like : α → α → Prop) : Except ε α → Except ε α → Prop where
  | error (e : ε) : Likewise Like (.error e) (.error e)
  | ok {a a' : α} (h : Like a a') : Likewise Like (.ok a) (.ok a')

namespace Keyed

variable {κ α : Type} [DecidableEq κ] {Like : α → α → Prop}

/-- Tables with the same keys in the same places, and values under them that are alike. -/
def Alike (Like : α → α → Prop) (t t' : Keyed κ α) : Prop :=
  List.Forall₂ (fun x y => y.1 = x.1 ∧ Like x.2 y.2) t t'

variable {t t' : Keyed κ α}

theorem Alike.get? (h : t.Alike Like t') (k : κ) : Option.Rel Like (t.get? k) (t'.get? k) := by
  induction h with
  | nil => exact .none
  | @cons x y r r' hxy _ ih =>
    obtain ⟨i, a⟩ := x
    obtain ⟨j, b⟩ := y
    obtain ⟨rfl, hab⟩ : j = i ∧ Like a b := hxy
    simp only [Keyed.get?]
    split
    · exact .some hab
    · exact ih

theorem Alike.put (h : t.Alike Like t') (k : κ) {a b : α} (hab : Like a b) :
    (t.put k a).Alike Like (t'.put k b) := by
  induction h with
  | nil => exact .cons ⟨rfl, hab⟩ .nil
  | @cons x y r r' hxy hr ih =>
    obtain ⟨i, c⟩ := x
    obtain ⟨j, d⟩ := y
    obtain ⟨rfl, hcd⟩ : j = i ∧ Like c d := hxy
    simp only [Keyed.put]
    split
    · exact .cons ⟨rfl, hab⟩ hr
    · exact .cons ⟨rfl, hcd⟩ ih

end Keyed

/-- Entries of one kind; what files hold may differ. -/
inductive Entry.Alike (Like : ByteArray → ByteArray → Prop) : Entry → Entry → Prop where
  | dir : Alike Like .dir .dir
  | file {bytes bytes' : ByteArray} (h : Like bytes bytes') : Alike Like (.file bytes) (.file bytes')

namespace Disk

variable {Like : ByteArray → ByteArray → Prop} {d d' : Disk}

/-- Disks with the same files and directories; what files hold may differ. -/
structure Alike (Like : ByteArray → ByteArray → Prop) (d d' : Disk) : Prop where
  cwd : d'.cwd = d.cwd
  entries : d.entries.Alike (Entry.Alike Like) d'.entries

namespace Alike

theorem refl (hrefl : ∀ bytes, Like bytes bytes) (d : Disk) : d.Alike Like d := by
  refine ⟨rfl, List.forall₂_same.2 fun x _ => ⟨rfl, ?_⟩⟩
  cases x.2 with
  | dir => exact .dir
  | file bytes => exact .file (hrefl bytes)

theorem entry? (h : d.Alike Like d') (l : Location) :
    Option.Rel (Entry.Alike Like) (d.entry? l) (d'.entry? l) := by
  unfold Disk.entry?
  split
  · exact .some .dir
  · exact h.entries.get? l

theorem put (h : d.Alike Like d') (l : Location) {e e' : Entry} (he : e.Alike Like e') :
    (d.put l e).Alike Like (d'.put l e') :=
  ⟨h.cwd, h.entries.put l he⟩

theorem advance (h : d.Alike Like d') : d'.advance = d.advance := by
  funext here c
  have he := h.entry? here
  unfold Disk.advance
  generalize d.entry? here = e at he ⊢
  generalize d'.entry? here = e' at he ⊢
  cases he with
  | none => rfl
  | some he => cases he <;> rfl

theorem resolve (h : d.Alike Like d') (p : Path) : d'.resolve p = d.resolve p := by
  simp only [Disk.resolve, h.advance, h.cwd]

theorem isDir (h : d.Alike Like d') (p : Path) : d'.isDir p = d.isDir p := by
  unfold Disk.isDir lookup
  rw [h.resolve p]
  cases d.resolve p with
  | error e => rfl
  | ok l =>
    have he := h.entry? l
    simp only [bind, Except.bind]
    generalize d.entry? l = e at he ⊢
    generalize d'.entry? l = e' at he ⊢
    cases he with
    | none => rfl
    | some he =>
      cases he with
      | dir => rfl
      | file => cases p.meansDirectory <;> rfl

/-- Whether something is there does not depend on what files hold. -/
theorem isSome_entry? (h : d.Alike Like d') (l : Location) :
    (d'.entry? l).isSome = (d.entry? l).isSome := by
  have he := h.entry? l
  generalize d.entry? l = e at he ⊢
  generalize d'.entry? l = e' at he ⊢
  cases he <;> rfl

theorem createDir (h : d.Alike Like d') (p : Path) :
    Likewise (Disk.Alike Like) (d.createDir p) (d'.createDir p) := by
  unfold Disk.createDir
  rw [h.resolve p]
  cases d.resolve p with
  | error e => exact .error e
  | ok l =>
    simp only [bind, Except.bind, h.isSome_entry? l]
    split
    · exact .error _
    · exact .ok (h.put l .dir)

theorem createFile (h : d.Alike Like d') (p : Path) {bytes bytes' : ByteArray} (hb : Like bytes bytes') :
    Likewise (Disk.Alike Like) (d.createFile p bytes) (d'.createFile p bytes') := by
  unfold Disk.createFile
  rw [h.resolve p]
  cases d.resolve p with
  | error e => exact .error e
  | ok l =>
    simp only [bind, Except.bind, h.isSome_entry? l]
    split
    · exact .error _
    · split
      · exact .error _
      · exact .ok (h.put l (.file hb))

theorem createDirs (h : d.Alike Like d') (ps : List Path) :
    (d.createDirs ps).1.Alike Like (d'.createDirs ps).1 ∧
      (d'.createDirs ps).2 = (d.createDirs ps).2 := by
  induction ps generalizing d d' with
  | nil => exact ⟨h, rfl⟩
  | cons p above ih =>
    unfold Disk.createDirs
    split
    · exact ⟨h, rfl⟩
    · have hfirst := h.createDir p
      generalize d.createDir p = made at hfirst ⊢
      generalize d'.createDir p = made' at hfirst ⊢
      cases hfirst with
      | ok hmade => exact ⟨hmade, rfl⟩
      | error e =>
        cases e with
        | notFound =>
          obtain ⟨habove, hsame⟩ := ih h
          generalize d.createDirs above = rest at habove hsame ⊢
          generalize d'.createDirs above = rest' at habove hsame ⊢
          obtain ⟨a, r⟩ := rest
          obtain ⟨a', r'⟩ := rest'
          obtain rfl : r' = r := hsame
          cases r' with
          | error e => exact ⟨habove, rfl⟩
          | ok =>
            have hsecond := Alike.createDir habove p
            simp only at hsecond ⊢
            generalize a.createDir p = made at hsecond ⊢
            generalize a'.createDir p = made' at hsecond ⊢
            cases hsecond with
            | ok hmade => exact ⟨hmade, rfl⟩
            | error e => exact ⟨habove, by simp only [Alike.isDir habove p]⟩
        | _ => exact ⟨h, by simp only [h.isDir p]⟩

theorem createDirAll (h : d.Alike Like d') (p : Path) :
    (d.createDirAll p).1.Alike Like (d'.createDirAll p).1 ∧
      (d'.createDirAll p).2 = (d.createDirAll p).2 :=
  h.createDirs p.ancestors

end Alike

end Disk

namespace Store

open Recording

/-- What the files of one step hold, but for its time. -/
def SameContent (bytes bytes' : ByteArray) : Prop :=
  bytes' = bytes ∨ ∃ (s : Step) (ts : UInt64), bytes = content s ∧ bytes' = content { s with ts := ts }

theorem sameContent_of_retimed {now later : UInt64} {o o' : Offer} (h : o.Retimed now later o') :
    SameContent (content o.step) (content o'.step) := by
  rcases h with rfl | ⟨-, rfl⟩
  · exact .inl rfl
  · exact .inr ⟨o.step, later, rfl, rfl⟩

/-- A store keeps the same steps at all times. -/
theorem timeless_sink (root : Path) (now later : UInt64) :
    (sink root).Timeless (Disk.Alike SameContent) now later := by
  intro d d' o o' h ho
  have hcontent := sameContent_of_retimed ho
  have hcase : o'.case = o.case ∧ o'.step.stepNumber = o.step.stepNumber := by
    rcases ho with rfl | ⟨-, rfl⟩ <;> exact ⟨rfl, rfl⟩
  have hfile : stepFile root o' = stepFile root o := by rw [stepFile, stepFile, hcase.1, hcase.2]
  obtain ⟨hroom, hsame⟩ := h.createDirAll (caseDir root o.case)
  unfold sink write
  rw [hcase.1, hfile]
  generalize d.createDirAll (caseDir root o.case) = room at hroom hsame ⊢
  generalize d'.createDirAll (caseDir root o.case) = room' at hroom hsame ⊢
  obtain ⟨a, r⟩ := room
  obtain ⟨a', r'⟩ := room'
  obtain rfl : r' = r := hsame
  cases r' with
  | error e => exact ⟨hroom, rfl⟩
  | ok =>
    have hmade := Disk.Alike.createFile hroom (stepFile root o) hcontent
    simp only at hmade ⊢
    generalize a.createFile (stepFile root o) (content o.step) = made at hmade ⊢
    generalize a'.createFile (stepFile root o) (content o'.step) = made' at hmade ⊢
    cases hmade with
    | ok hmade => exact ⟨hmade, rfl⟩
    | error e => cases e <;> exact ⟨hroom, rfl⟩

/-- Events that come into a store at another time leave the same steps there, but for the times of those
that have none of their own. -/
theorem alike_of_ingest (root : Path) (now later : UInt64) (r : Recorder Disk) (bytes : List UInt8) :
    (ingest (sink root) now r bytes).1.Alike (Disk.Alike SameContent)
        (ingest (sink root) later r bytes).1 ∧
      (ingest (sink root) later r bytes).2 = (ingest (sink root) now r bytes).2 :=
  Recorder.Alike.ingest ⟨rfl, rfl, rfl, rfl, .refl (fun _ => .inl rfl) r.sink⟩
    (timeless_sink root now later) bytes

end Store

end StepTrace
