import StepTrace.Proofs.Files.Path

/-!
What the operations of a disk leave as it was. Creating directories adds directories and nothing else;
creating a file adds that file, where nothing was.
-/
namespace StepTrace.Disk

/-- A disk with more entries. -/
def adding (d : Disk) (new : List (Location × Entry)) : Disk :=
  { d with entries := d.entries ++ new }

/-- Only directories are new. -/
def AddsDirs (d d' : Disk) : Prop := ∃ ls : List Location, d' = d.adding (ls.map (·, .dir))

namespace AddsDirs

theorem cwd_eq {d d' : Disk} (h : d.AddsDirs d') : d'.cwd = d.cwd := by
  obtain ⟨ls, rfl⟩ := h
  rfl

theorem mem_file_iff {d d' : Disk} (h : d.AddsDirs d') {l : Location} {bytes : ByteArray} :
    (l, Entry.file bytes) ∈ d'.entries ↔ (l, Entry.file bytes) ∈ d.entries := by
  obtain ⟨ls, rfl⟩ := h
  simp [adding]

end AddsDirs

theorem put_of_entry?_eq_none {d : Disk} {l : Location} (h : d.entry? l = none) (e : Entry) :
    d.put l e = d.adding [(l, e)] := by
  unfold entry? at h
  split at h
  · cases h
  · simp [put, adding, Keyed.put_of_get?_eq_none h]

/-- What it takes to create a directory, and what there is then. -/
theorem createDir_eq_ok_iff {d d' : Disk} {p : Path} :
    d.createDir p = .ok d' ↔ d.resolve p = .ok (p.location d.cwd) ∧
      d.entry? (p.location d.cwd) = none ∧ d' = d.put (p.location d.cwd) .dir := by
  unfold createDir
  cases hr : d.resolve p with
  | error e => simp [bind, Except.bind]
  | ok l =>
    obtain rfl := resolve_eq hr
    cases he : d.entry? (p.location d.cwd) <;>
      simp [bind, Except.bind, pure, Except.pure, he, eq_comm]

theorem createDir_eq {d d' : Disk} {p : Path} (h : d.createDir p = .ok d') :
    d' = d.adding [(p.location d.cwd, .dir)] := by
  obtain ⟨-, hn, rfl⟩ := createDir_eq_ok_iff.1 h
  exact put_of_entry?_eq_none hn .dir

/-- Creating directories adds directories where the given paths lead and nothing else, whether it
succeeds or fails halfway. -/
theorem createDirs_eq (d : Disk) (ps : List Path) :
    ∃ ls : List Location, (∀ l ∈ ls, ∃ p ∈ ps, l = p.location d.cwd) ∧
      (d.createDirs ps).1 = d.adding (ls.map (·, .dir)) := by
  induction ps generalizing d with
  | nil => exact ⟨[], by simp, by simp [createDirs, adding]⟩
  | cons p above ih =>
    have none : ∃ ls : List Location, (∀ l ∈ ls, ∃ q ∈ p :: above, l = q.location d.cwd) ∧
        d = d.adding (ls.map (·, .dir)) := ⟨[], by simp, by simp [adding]⟩
    simp only [createDirs]
    split
    · exact none
    · split
      · next hd => exact ⟨[p.location d.cwd], by simp, createDir_eq hd⟩
      · obtain ⟨ls, hls, hab⟩ := ih d
        have way : ∀ l ∈ ls, ∃ q ∈ p :: above, l = q.location d.cwd := fun l hl =>
          (hls l hl).imp fun q hq => ⟨List.mem_cons_of_mem _ hq.1, hq.2⟩
        split
        · next hd =>
          rw [hd] at hab
          exact ⟨ls, way, hab⟩
        · next d' hd =>
          rw [hd] at hab
          split
          · next hd' =>
            refine ⟨ls ++ [p.location d.cwd], ?_, ?_⟩
            · intro l hl
              rcases List.mem_append.1 hl with hl | hl
              · exact way l hl
              · exact ⟨p, List.mem_cons_self, List.mem_singleton.1 hl⟩
            · obtain rfl : d' = d.adding (ls.map (·, .dir)) := hab
              simpa [adding] using createDir_eq hd'
          · exact ⟨ls, way, hab⟩
      · exact none

/-- Nothing is done for a directory that is there. -/
theorem createDirAll_of_dir {d : Disk} {p : Path} {l : Location} (hp : p.text ≠ "")
    (hl : d.resolve p = .ok l) (he : d.entry? l = some .dir) : d.createDirAll p = (d, .ok ()) := by
  have hc : d.createDir p = .error .alreadyExists := by
    simp [createDir, hl, bind, Except.bind, he]
  have hd : d.isDir p := by
    simp [isDir, lookup, hl, bind, Except.bind, he]
  simp [createDirAll, Path.ancestors, createDirs, hp, hc, hd]

theorem addsDirs_createDirAll (d : Disk) (p : Path) : d.AddsDirs (d.createDirAll p).1 := by
  obtain ⟨ls, -, he⟩ := createDirs_eq d p.ancestors
  exact ⟨ls, he⟩

/-- What it takes to create a file, and what there is then. -/
structure Creates (d : Disk) (p : Path) (bytes : ByteArray) (d' : Disk) : Prop where
  resolve_eq : d.resolve p = .ok (p.location d.cwd)
  entry?_eq_none : d.entry? (p.location d.cwd) = none
  meansFile : p.meansDirectory = false
  eq_adding : d' = d.adding [(p.location d.cwd, .file bytes)]

theorem creates_createFile {d d' : Disk} {p : Path} {bytes : ByteArray}
    (h : d.createFile p bytes = .ok d') : d.Creates p bytes d' := by
  unfold createFile at h
  cases hl : d.resolve p with
  | error e => rw [hl] at h; cases h
  | ok l =>
    obtain rfl := Disk.resolve_eq hl
    rw [hl] at h
    cases he : d.entry? (p.location d.cwd) with
    | some e => simp [bind, Except.bind, he] at h
    | none =>
      simp only [bind, Except.bind, he, Option.isSome_none, Bool.false_eq_true, if_false] at h
      split at h
      · cases h
      · next hm =>
        cases h
        exact ⟨hl, he, by simpa using hm, put_of_entry?_eq_none he _⟩

theorem lookup_eq {d : Disk} {p : Path} {e : Entry} (h : d.lookup p = .ok e) :
    d.resolve p = .ok (p.location d.cwd) ∧ d.entry? (p.location d.cwd) = some e := by
  unfold lookup at h
  cases hl : d.resolve p with
  | error e => rw [hl] at h; cases h
  | ok l =>
    rw [← resolve_eq hl]
    refine ⟨rfl, ?_⟩
    simp only [hl, bind, Except.bind] at h
    split at h
    · cases h
    · next he =>
      split at h
      · cases h
      · cases h
        exact he
    · next he =>
      cases h
      exact he

theorem isDir_iff {d : Disk} {p : Path} : d.isDir p ↔ d.lookup p = .ok .dir := by
  unfold isDir
  cases d.lookup p with
  | error e => simp
  | ok e => cases e <;> simp

/-! ### What stays -/

/-- Entries that are added do not hide those that were there. -/
theorem entry?_adding (d : Disk) (new : List (Location × Entry)) (l : Location) :
    entry? (d.adding new) l = (d.entry? l).or (Keyed.get? new l) := by
  unfold entry?
  by_cases hl : l = []
  · simp [hl]
  · simp [adding, hl, Keyed.get?_append]

/-- All directories stay, whatever becomes of files. -/
structure KeepsDirs (d d' : Disk) : Prop where
  cwd_eq : d'.cwd = d.cwd
  dir_eq : ∀ {l : Location}, d.entry? l = some .dir → d'.entry? l = some .dir

namespace KeepsDirs

variable {d d' d'' : Disk}

theorem refl (d : Disk) : d.KeepsDirs d := ⟨rfl, id⟩

theorem trans (h : d.KeepsDirs d') (h' : d'.KeepsDirs d'') : d.KeepsDirs d'' :=
  ⟨h'.cwd_eq.trans h.cwd_eq, fun he => h'.dir_eq (h.dir_eq he)⟩

theorem advance (h : d.KeepsDirs d') {here l : Location} {c : Path.Component}
    (ha : d.advance here c = .ok l) : d'.advance here c = .ok l := by
  have hdir := dir_of_advance ha
  unfold Disk.advance at *
  rw [hdir] at ha
  rw [h.dir_eq hdir]
  exact ha

/-- A path that leads anywhere goes on leading there. -/
theorem resolve (h : d.KeepsDirs d') {p : Path} {l : Location} (hr : d.resolve p = .ok l) :
    d'.resolve p = .ok l := by
  have fold : ∀ (cs : List Path.Component) (here : Location),
      cs.foldlM d.advance here = .ok l → cs.foldlM d'.advance here = .ok l := by
    intro cs
    induction cs with
    | nil => exact fun _ he => he
    | cons c cs ih =>
      intro here he
      rw [List.foldlM_cons] at he ⊢
      cases hc : d.advance here c with
      | error e => rw [hc] at he; cases he
      | ok next =>
        rw [hc] at he
        rw [h.advance hc]
        exact ih next he
  obtain ⟨hu, he⟩ := resolve_eq_ok_iff.1 hr
  exact resolve_eq_ok_iff.2 ⟨hu, fold _ _ (h.cwd_eq ▸ he)⟩

/-- A path finds what it found, if it is still there. -/
theorem lookup (h : d.KeepsDirs d') {p : Path} {e : Entry} (hl : d.lookup p = .ok e)
    (same : d'.entry? (p.location d.cwd) = some e) : d'.lookup p = .ok e := by
  obtain ⟨hr, he⟩ := lookup_eq hl
  unfold Disk.lookup at *
  rw [hr] at hl
  rw [h.resolve hr]
  simp only [bind, Except.bind, he, same] at hl ⊢
  exact hl

theorem isDir (h : d.KeepsDirs d') {p : Path} (hd : d.isDir p) : d'.isDir p := by
  rw [isDir_iff] at *
  exact h.lookup hd (h.dir_eq (lookup_eq hd).2)

end KeepsDirs

/-- All that is there stays as it is. -/
structure Grows (d d' : Disk) : Prop where
  cwd_eq : d'.cwd = d.cwd
  entry?_eq : ∀ {l : Location} {e : Entry}, d.entry? l = some e → d'.entry? l = some e

theorem grows_adding (d : Disk) (new : List (Location × Entry)) : d.Grows (d.adding new) :=
  ⟨rfl, fun h => by rw [entry?_adding, h, Option.some_or]⟩

theorem AddsDirs.grows {d d' : Disk} (h : d.AddsDirs d') : d.Grows d' := by
  obtain ⟨ls, rfl⟩ := h
  exact grows_adding d _

/-- Where only directories are new, every file was there before. -/
theorem AddsDirs.entry?_file_iff {d d' : Disk} (h : d.AddsDirs d') {l : Location}
    {bytes : ByteArray} : d'.entry? l = some (.file bytes) ↔ d.entry? l = some (.file bytes) := by
  refine ⟨fun he => ?_, h.grows.entry?_eq⟩
  obtain ⟨ls, rfl⟩ := h
  rw [entry?_adding, Option.or_eq_some_iff] at he
  rcases he with he | ⟨-, he⟩
  · exact he
  · obtain ⟨l', -, hl⟩ := List.mem_map.1 (Keyed.mem_of_get? he)
    cases hl

namespace Grows

variable {d d' d'' : Disk}

theorem refl (d : Disk) : d.Grows d := ⟨rfl, id⟩

theorem trans (h : d.Grows d') (h' : d'.Grows d'') : d.Grows d'' :=
  ⟨h'.cwd_eq.trans h.cwd_eq, fun he => h'.entry?_eq (h.entry?_eq he)⟩

theorem keepsDirs (h : d.Grows d') : d.KeepsDirs d' := ⟨h.cwd_eq, h.entry?_eq⟩

theorem lookup (h : d.Grows d') {p : Path} {e : Entry} (hl : d.lookup p = .ok e) :
    d'.lookup p = .ok e := h.keepsDirs.lookup hl (h.entry?_eq (lookup_eq hl).2)

/-- A file that can be read goes on holding what it holds. -/
theorem read (h : d.Grows d') {p : Path} {bytes : ByteArray} (hr : d.read p = .ok bytes) :
    d'.read p = .ok bytes := by
  unfold Disk.read at *
  cases hl : d.lookup p with
  | error e => rw [hl] at hr; cases hr
  | ok e =>
    rw [hl] at hr
    rw [h.lookup hl]
    exact hr

end Grows

/-- A file that was created can be read. -/
theorem Creates.read_eq {d d' : Disk} {p : Path} {bytes : ByteArray} (h : d.Creates p bytes d') :
    d'.read p = .ok bytes := by
  obtain ⟨hr, hn, hm, rfl⟩ := h
  have he : entry? (d.adding [(p.location d.cwd, .file bytes)]) (p.location d.cwd) =
      some (.file bytes) := by
    simp [entry?_adding, hn, Keyed.get?]
  simp [read, lookup, (grows_adding d _).keepsDirs.resolve hr, bind, Except.bind, he, hm, pure, Except.pure]

/-- Where a file was created, it is new, and every other file was there before. -/
theorem Creates.entry?_file_iff {d d' : Disk} {p : Path} {bytes : ByteArray}
    (h : d.Creates p bytes d') {l : Location} {bytes' : ByteArray} :
    d'.entry? l = some (.file bytes') ↔
      d.entry? l = some (.file bytes') ∨ l = p.location d.cwd ∧ bytes' = bytes := by
  obtain ⟨-, hn, -, rfl⟩ := h
  rw [entry?_adding, Option.or_eq_some_iff]
  by_cases hl : p.location d.cwd = l
  · subst hl
    simp [hn, Keyed.get?, eq_comm]
  · simp [Keyed.get?, hl, Ne.symm hl]

theorem lookup_of_read {d : Disk} {p : Path} {bytes : ByteArray} (h : d.read p = .ok bytes) :
    d.lookup p = .ok (.file bytes) := by
  unfold read at h
  cases hl : d.lookup p with
  | error e => rw [hl] at h; cases h
  | ok e =>
    cases e with
    | file b => rw [hl] at h; cases h; rfl
    | dir => rw [hl] at h; cases h

/-- At a location there is a file. -/
def IsFile (d : Disk) (l : Location) : Prop := ∃ bytes, d.entry? l = some (.file bytes)

instance (d : Disk) (l : Location) : Decidable (d.IsFile l) :=
  match h : d.entry? l with
  | some (.file bytes) => isTrue ⟨bytes, h⟩
  | some .dir => isFalse fun ⟨_, hb⟩ => nomatch h.symm.trans hb
  | none => isFalse fun ⟨_, hb⟩ => nomatch h.symm.trans hb

theorem mem_of_entry?_eq_file {d : Disk} {l : Location} {bytes : ByteArray}
    (h : d.entry? l = some (.file bytes)) : (l, Entry.file bytes) ∈ d.entries := by
  unfold entry? at h
  split at h
  · cases h
  · exact Keyed.mem_of_get? h

/-- A file that can be read is where its path leads. -/
theorem mem_of_read {d : Disk} {p : Path} {bytes : ByteArray} (h : d.read p = .ok bytes) :
    (p.location d.cwd, Entry.file bytes) ∈ d.entries :=
  mem_of_entry?_eq_file (lookup_eq (lookup_of_read h)).2

theorem entry?_ne_none_of_mem {d : Disk} {l : Location} {e : Entry} (h : (l, e) ∈ d.entries) :
    d.entry? l ≠ none := by
  have found : ∀ t : Keyed Location Entry, (l, e) ∈ t → t.get? l ≠ none := by
    intro t
    induction t with
    | nil => simp
    | cons p t ih => grind [Keyed.get?]
  unfold entry?
  split
  · simp
  · exact found _ h

/-! ### Directories -/

theorem isDir_of_resolve {d : Disk} {p : Path} {l : Location} (hr : d.resolve p = .ok l)
    (he : d.entry? l = some .dir) : d.isDir p := by
  simp [isDir, lookup, hr, bind, Except.bind, he]

theorem Grows.isDir {d d' : Disk} (h : d.Grows d') {p : Path} (hd : d.isDir p) : d'.isDir p :=
  h.keepsDirs.isDir hd

theorem under?_eq_some {top l : Location} {names : List String} :
    under? top l = some names ↔ l = top ++ names := by
  induction top generalizing l with
  | nil => simp [under?, eq_comm]
  | cons n top ih =>
    cases l with
    | nil => simp [under?]
    | cons m l => by_cases hn : n = m <;> simp [under?, hn, ih, eq_comm (a := m)]

/-- Below a directory there are the files whose locations start with its own. -/
theorem mem_filesBelow {d : Disk} {root : Path} (h : d.isDir root) :
    ∃ files, d.filesBelow root = .ok files ∧ ∀ names, names ∈ files ↔
      ∃ bytes, (root.location d.cwd ++ names, Entry.file bytes) ∈ d.entries := by
  have hd := isDir_iff.1 h
  refine ⟨_, by simp only [filesBelow, hd, (lookup_eq hd).1]; rfl, fun names => ?_⟩
  rw [List.mem_filterMap]
  constructor
  · rintro ⟨⟨l, bytes | _⟩, hm, hu⟩
    · obtain rfl := under?_eq_some.1 hu
      exact ⟨bytes, hm⟩
    · cases hu
  · rintro ⟨bytes, hm⟩
    exact ⟨_, hm, under?_eq_some.2 rfl⟩

end StepTrace.Disk
