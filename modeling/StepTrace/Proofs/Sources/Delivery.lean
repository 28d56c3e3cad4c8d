import StepTrace.Proofs.Sources.Find

/-!
How instrumented files are written: one after the other, each over what was there. A run over files leaves
the results of all of them, of each as it was at the start if no output lands on a file that is read after
it.
-/
namespace StepTrace.Sources

open StepTrace.Path

variable {d d' : Disk} {root out p : Path} {bytes : ByteArray}

/-! ### One file -/

/-- Creates the directories above a file. -/
def makeRoom (d : Disk) (p : Path) : Disk × Except FileFault Unit :=
  match p.parent? with
  | some above => if above.text = "" then (d, .ok ()) else d.createDirAll above
  | none => (d, .ok ())

/-- The directories above a file, as far as there are any to create. -/
def HasRoom (d : Disk) (p : Path) : Prop := ∀ q, p.parent? = some q → q.text = "" ∨ d.isDir q

theorem makeRoom_of_hasRoom (h : HasRoom d p) : makeRoom d p = (d, .ok ()) := by
  unfold makeRoom
  cases hq : p.parent? with
  | none => rfl
  | some q =>
    by_cases hne : q.text = ""
    · simp [hne]
    · have hl := Disk.lookup_eq (Disk.isDir_iff.1 ((h q hq).resolve_left hne))
      simpa [hne] using Disk.createDirAll_of_dir hne hl.1 hl.2

theorem addsDirs_makeRoom (d : Disk) (p : Path) : d.AddsDirs (makeRoom d p).1 := by
  have none : d.AddsDirs d := ⟨[], by simp [Disk.adding]⟩
  unfold makeRoom
  split
  · split
    · exact none
    · exact d.addsDirs_createDirAll _
  · exact none

theorem hasRoom_of_makeRoom (h : makeRoom d p = (d', .ok ())) : HasRoom d' p := by
  intro q hq
  simp only [makeRoom, hq] at h
  split at h
  · next hne => exact Or.inl hne
  · exact Disk.isDir_of_createDirs h

theorem sound_makeRoom (sound : d.Sound) (p : Path) : (makeRoom d p).1.Sound := by
  unfold makeRoom
  split
  · split
    · exact sound
    · exact sound.createDirAll _
  · exact sound

theorem deliver_eq_ok_iff :
    deliver d p bytes = (d', .ok ()) ↔
      ∃ e, makeRoom d p = (e, .ok ()) ∧ e.write p bytes = .ok d' := by
  have written : ∀ e : Disk, (∃ e', (e, (Except.ok () : Except FileFault Unit)) = (e', .ok ()) ∧
      e'.write p bytes = .ok d') ↔ e.write p bytes = .ok d' := by simp
  unfold deliver makeRoom
  cases p.parent? with
  | none =>
    rw [written]
    cases hw : d.write p bytes <;> simp [hw]
  | some q =>
    by_cases hq : q.text = ""
    · simp only [hq, if_true]
      rw [written]
      cases d.write p bytes <;> simp
    · simp only [hq, if_false]
      cases d.createDirAll q with
      | mk e made =>
        cases made with
        | error f => simp
        | ok =>
          rw [written]
          cases hw : e.write p bytes <;> simp [hw]

/-- A file can be written without creating any directory. -/
structure Ready (d : Disk) (p : Path) : Prop where
  room : HasRoom d p
  leads : d.resolve p = .ok (p.location d.cwd)
  not_dir : d.entry? (p.location d.cwd) ≠ some .dir
  meansFile : p.meansDirectory = false

theorem Ready.mono (h : Ready d p) (hk : d.KeepsDirs d')
    (hn : d'.entry? (p.location d.cwd) ≠ some .dir) : Ready d' p := by
  have hcwd := hk.cwd_eq
  exact ⟨fun q hq => (h.room q hq).imp id hk.isDir, hcwd ▸ hk.resolve h.leads, hcwd ▸ hn, h.meansFile⟩

theorem Ready.put (h : Ready d p) {l : Location} (hl : d.entry? l ≠ some .dir) :
    Ready (d.put l (.file bytes)) p := by
  refine h.mono (Disk.Overwrites.of_put hl bytes).keepsDirs ?_
  rw [Disk.entry?_put (Disk.ne_nil_of_not_dir hl)]
  split
  · simp
  · exact h.not_dir

theorem deliver_of_ready (h : Ready d p) (bytes : ByteArray) :
    deliver d p bytes = (d.put (p.location d.cwd) (.file bytes), .ok ()) :=
  deliver_eq_ok_iff.2 ⟨d, makeRoom_of_hasRoom h.room,
    Disk.write_eq_ok_iff.2 ⟨h.leads, h.not_dir, h.meansFile, rfl⟩⟩

/-- What a delivery leaves: the file where its path leads, and directories above it. -/
theorem ready_of_deliver (h : deliver d p bytes = (d', .ok ())) :
    d.Overwrites [(p.location d.cwd, bytes)] d' ∧ Ready d' p := by
  obtain ⟨e, hmade, hw⟩ := deliver_eq_ok_iff.1 h
  obtain ⟨hr, hdir, hm, rfl⟩ := Disk.write_eq_ok_iff.1 hw
  have hadds : d.AddsDirs e := by simpa [hmade] using addsDirs_makeRoom d p
  have hready : Ready e p := ⟨hasRoom_of_makeRoom hmade, hr, hdir, hm⟩
  rw [← hadds.cwd_eq]
  exact ⟨(Disk.Overwrites.of_addsDirs hadds).append (.of_put hdir bytes), hready.put hdir⟩

/-- What is delivered can be read. -/
theorem read_of_deliver (h : deliver d p bytes = (d', .ok ())) : d'.read p = .ok bytes := by
  obtain ⟨hover, hready⟩ := ready_of_deliver h
  have hfile : d'.entry? (p.location d'.cwd) = some (.file bytes) := by
    rw [hover.keepsDirs.cwd_eq]
    exact hover.file_of_get? (by simp [Keyed.get?])
  exact Disk.read_of_file hready.leads hfile hready.meansFile

theorem sound_of_deliver (sound : d.Sound) (h : deliver d p bytes = (d', .ok ())) : d'.Sound := by
  obtain ⟨e, hmade, hw⟩ := deliver_eq_ok_iff.1 h
  have he : e.Sound := by simpa [hmade] using sound_makeRoom sound p
  exact he.write hw

/-- What becomes of a file below a directory. -/
def traced? (d : Disk) (root p : Path) : Except Failure Script.Traced :=
  match d.readText (root.join p) with
  | .error e => .error (.file e)
  | .ok text => (Script.instrument (dialectOf (root.join p)) (fileId p) text).mapError (·.failure)

theorem traced?_eq_ok_iff {t : Script.Traced} :
    traced? d root p = .ok t ↔ ∃ text, d.readText (root.join p) = .ok text ∧
      Script.instrument (dialectOf (root.join p)) (fileId p) text = .ok t := by
  unfold traced?
  cases d.readText (root.join p) with
  | error e => simp
  | ok text =>
    simp only [Except.ok.injEq, exists_eq_left']
    cases Script.instrument (dialectOf (root.join p)) (fileId p) text <;> simp [Except.mapError]

/-- What is told of a file with its result. -/
def reportOf (root out : Path) (w : Path × Script.Traced) : InstrumentedFile :=
  ⟨fileId w.1, (root.join w.1).text, some (outputPath out w.1).text, w.2.sites, none⟩

/-- Where the result of a file goes, and what it is. -/
def writeOf (cwd : Location) (out : Path) (w : Path × Script.Traced) : Location × ByteArray :=
  ((outputPath out w.1).location cwd, w.2.code.toUTF8)

theorem instrumentFile_eq_ok_iff {f : InstrumentedFile} :
    instrumentFile d (root.join p) (fileId p) (some (outputPath out p)) = (d', .ok f) ↔
      ∃ t, traced? d root p = .ok t ∧ f = reportOf root out (p, t) ∧
        deliver d (outputPath out p) t.code.toUTF8 = (d', .ok ()) := by
  unfold instrumentFile traced?
  cases d.readText (root.join p) with
  | error e => simp
  | ok text =>
    simp only
    cases Script.instrument (dialectOf (root.join p)) (fileId p) text with
    | error r => simp [Except.mapError]
    | ok t =>
      simp only [Except.mapError, Except.ok.injEq, exists_eq_left']
      cases deliver d (outputPath out p) t.code.toUTF8 with
      | mk e made => cases made <;> simp [reportOf, and_comm, eq_comm]

/-! ### One file after the other -/

theorem instrumentAll_cons_eq_ok_iff {ps : List Path} {fs : List InstrumentedFile} :
    instrumentAll d root out (p :: ps) = (d', .ok fs) ↔ ∃ e f rest,
      instrumentFile d (root.join p) (fileId p) (some (outputPath out p)) = (e, .ok f) ∧
        instrumentAll e root out ps = (d', .ok rest) ∧ fs = f :: rest := by
  rw [instrumentAll_cons]
  cases instrumentFile d (root.join p) (fileId p) (some (outputPath out p)) with
  | mk e made =>
    cases made with
    | error f => simp
    | ok f =>
      simp only [Prod.mk.injEq, Except.ok.injEq, and_assoc, exists_and_left, exists_eq_left']
      cases instrumentAll e root out ps with
      | mk e' rest => cases rest <;> simp [eq_comm, and_comm]

/-- No output lands on a file that is read after it. -/
def Spares (cwd : Location) (root out : Path) (ps : List Path) : Prop :=
  ps.Pairwise fun p q => (outputPath out p).location cwd ≠ (root.join q).location cwd

instance (cwd : Location) (root out : Path) (ps : List Path) : Decidable (Spares cwd root out ps) :=
  inferInstanceAs (Decidable (ps.Pairwise _))

/-- Files with their results, all of which were written. -/
structure Delivers (d : Disk) (root out : Path) (ws : List (Path × Script.Traced)) (d' : Disk) :
    Prop where
  sound : d'.Sound
  overwrites : d.Overwrites (ws.map (writeOf d.cwd out)) d'
  traced : ∀ w ∈ ws, traced? d root w.1 = .ok w.2
  ready : ∀ w ∈ ws, Ready d' (outputPath out w.1)

/-- The run over the files: each is taken as it is at the start, and all results are written in turn. -/
theorem delivers_of_instrumentAll {ps : List Path} {fs : List InstrumentedFile} (sound : d.Sound)
    (hroot : d.isDir root) (hps : ∀ p ∈ ps, ∃ names, p = ofNames names ∧ LeadsToFile d root names)
    (hspares : Spares d.cwd root out ps) (h : instrumentAll d root out ps = (d', .ok fs)) :
    ∃ ws, ws.map Prod.fst = ps ∧ ws.map (reportOf root out) = fs ∧ Delivers d root out ws d' := by
  induction ps generalizing d fs with
  | nil =>
    cases h
    exact ⟨[], rfl, rfl, sound, .refl _, by simp, by simp⟩
  | cons p ps ih =>
    obtain ⟨e, f, rest, hf, hrest, rfl⟩ := instrumentAll_cons_eq_ok_iff.1 h
    obtain ⟨t, ht, rfl, hd⟩ := instrumentFile_eq_ok_iff.1 hf
    obtain ⟨hover, hready⟩ := ready_of_deliver hd
    obtain ⟨hfirst, hspares⟩ := List.pairwise_cons.1 hspares
    obtain ⟨-, hps⟩ := List.forall_mem_cons.1 hps
    have hcwd := hover.keepsDirs.cwd_eq
    have hps' : ∀ q ∈ ps, ∃ names, q = ofNames names ∧ LeadsToFile e root names := by
      intro q hq
      obtain ⟨names, rfl, bytes, he⟩ := hps q hq
      refine ⟨names, rfl, ?_⟩
      rw [LeadsToFile, hcwd]
      exact hover.file_of_file he
    obtain ⟨ws, rfl, rfl, hws⟩ := ih (sound_of_deliver sound hd) (hover.keepsDirs.isDir hroot) hps'
      (hcwd ▸ hspares) hrest
    refine ⟨(p, t) :: ws, rfl, rfl, hws.sound, ?_, ?_, ?_⟩
    · rw [← hcwd] at hover ⊢
      exact hover.append hws.overwrites
    · refine List.forall_mem_cons.2 ⟨ht, fun w hw => ?_⟩
      have hq := List.mem_map_of_mem (f := Prod.fst) hw
      obtain ⟨names, hnames, bytes, he⟩ := hps w.1 hq
      obtain ⟨text, htext, hi⟩ := traced?_eq_ok_iff.1 (hws.traced w hw)
      have hn := hfirst w.1 hq
      rw [hnames] at htext hn
      refine traced?_eq_ok_iff.2 ⟨text, ?_, hi⟩
      rw [hnames]
      exact sound.readText_below hroot hover he (by simpa [Keyed.keys] using hn.symm) htext
    · refine List.forall_mem_cons.2 ⟨?_, hws.ready⟩
      have hfile : e.entry? ((outputPath out p).location e.cwd) = some (.file t.code.toUTF8) := by
        rw [hcwd]
        exact hover.file_of_get? (by simp [Keyed.get?])
      obtain ⟨bytes, hb⟩ := hws.overwrites.file_of_file hfile
      exact hready.mono hws.overwrites.keepsDirs (by simp [hb])

theorem outputs_of_instrumentAll {ps : List Path} {fs : List InstrumentedFile}
    (h : instrumentAll d root out ps = (d', .ok fs)) :
    fs.map (·.output) = ps.map fun p => some (outputPath out p).text := by
  induction ps generalizing d fs with
  | nil =>
    cases h
    rfl
  | cons p ps ih =>
    obtain ⟨e, f, rest, hf, hrest, rfl⟩ := instrumentAll_cons_eq_ok_iff.1 h
    obtain ⟨t, -, rfl, -⟩ := instrumentFile_eq_ok_iff.1 hf
    simp [ih hrest, reportOf]

end StepTrace.Sources
