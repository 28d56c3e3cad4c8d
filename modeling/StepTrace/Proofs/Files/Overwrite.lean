import StepTrace.Proofs.Files.Disk
import StepTrace.Proofs.Keyed

/-!
Writing files over others. A write leaves every directory in its place and changes one file. Of several
writes to one location the last one stays, so a table of writes tells what all files hold after them.
-/
namespace StepTrace

namespace Disk

variable {d d' d'' : Disk}

theorem ne_nil_of_not_dir {l : Location} (h : d.entry? l ≠ some .dir) : l ≠ [] := by
  rintro rfl
  exact h rfl

theorem entry?_put {l : Location} (hl : l ≠ []) (e : Entry) (m : Location) :
    entry? (d.put l e) m = if l = m then some e else d.entry? m := by
  by_cases hm : m = []
  · subst hm
    simp [ entry?, hl]
  · simp [ entry?, hm, put, Keyed.get?_put]

/-- What it takes to write a file, and what there is then. -/
theorem write_eq_ok_iff {p : Path} {bytes : ByteArray} :
    d.write p bytes = .ok d' ↔
      d.resolve p = .ok (p.location d.cwd) ∧ d.entry? (p.location d.cwd) ≠ some .dir ∧
        p.meansDirectory = false ∧ d' = d.put (p.location d.cwd) (.file bytes) := by
  unfold write
  cases hr : d.resolve p with
  | error e => simp [bind, Except.bind]
  | ok l =>
    obtain rfl := resolve_eq hr
    cases he : d.entry? (p.location d.cwd) with
    | none => by_cases hm : p.meansDirectory <;> simp [bind, Except.bind, pure, Except.pure, he, hm, eq_comm]
    | some e =>
      cases e with
      | dir => simp [bind, Except.bind, he]
      | file b => by_cases hm : p.meansDirectory <;> simp [bind, Except.bind, pure, Except.pure, he, hm, eq_comm]

/-- The first of the paths is a directory once it was created with those above it. -/
theorem isDir_of_createDirs {p : Path} {above : List Path}
    (h : d.createDirs (p :: above) = (d', .ok ())) :
    p.text = "" ∨ d'.isDir p := by
  have created : ∀ {e e' : Disk}, e.createDir p = .ok e' → e'.isDir p := by
    intro e e' he
    obtain ⟨hr, hn, rfl⟩ := createDir_eq_ok_iff.1 he
    have hgrows : e.Grows (e.put (p.location e.cwd) .dir) := by
      rw [put_of_entry?_eq_none hn]
      exact grows_adding e _
    have hne : p.location e.cwd ≠ [] := ne_nil_of_not_dir (d := e) (by simp [hn])
    exact isDir_of_resolve (hgrows.keepsDirs.resolve hr) (by simp [entry?_put hne])
  have checked : ∀ {e : Disk} {f : FileFault},
      (e, if e.isDir p then Except.ok () else .error f) = (d', .ok ()) → d'.isDir p := by
    intro e f he
    by_cases hd : e.isDir p
    · simp only [hd, if_true] at he
      cases he
      exact hd
    · simp [hd] at he
  simp only [createDirs] at h
  split at h
  · next hp => exact Or.inl hp
  · refine Or.inr ?_
    split at h
    · next hd =>
      cases h
      exact created hd
    · split at h
      · cases h
      · split at h
        · next hd =>
          cases h
          exact created hd
        · exact checked h
    · exact checked h

/-! ### Reading what stays -/

theorem read_of_file {p : Path} {bytes : ByteArray} (hr : d.resolve p = .ok (p.location d.cwd))
    (he : d.entry? (p.location d.cwd) = some (.file bytes)) (hm : p.meansDirectory = false) :
    d.read p = .ok bytes := by
  simp [read, lookup, hr, bind, Except.bind, he, hm, pure, Except.pure]

theorem meansFile_of_lookup {p : Path} {bytes : ByteArray} (h : d.lookup p = .ok (.file bytes)) :
    p.meansDirectory = false := by
  obtain ⟨hr, he⟩ := lookup_eq h
  unfold lookup at h
  by_cases hm : p.meansDirectory
  · simp [bind, Except.bind, hr, he, hm] at h
  · simpa using hm

theorem KeepsDirs.read (h : d.KeepsDirs d') {p : Path} {bytes : ByteArray} (hr : d.read p = .ok bytes)
    (same : d'.entry? (p.location d.cwd) = some (.file bytes)) : d'.read p = .ok bytes := by
  have hl := h.lookup (lookup_of_read hr) same
  simp [Disk.read, hl, bind, Except.bind, pure, Except.pure]

theorem read_of_readText {p : Path} {s : String} (h : d.readText p = .ok s) :
    ∃ bytes, d.read p = .ok bytes ∧ String.fromUTF8? bytes = some s := by
  unfold readText at h
  cases hr : d.read p with
  | error e => simp [hr, bind, Except.bind] at h
  | ok bytes =>
    refine ⟨bytes, rfl, ?_⟩
    cases hs : String.fromUTF8? bytes with
    | none => simp [hr, bind, Except.bind, hs] at h
    | some t => simpa [hr, bind, Except.bind, hs, pure, Except.pure] using h

theorem readText_of_read {p : Path} {s : String} {bytes : ByteArray} (hr : d.read p = .ok bytes)
    (hs : String.fromUTF8? bytes = some s) : d.readText p = .ok s := by
  simp [readText, hr, bind, Except.bind, hs, pure, Except.pure]

/-! ### Many writes -/

/-- Directories stay, and every file holds what was written there last, or else what it held. -/
structure Overwrites (d : Disk) (ws : Keyed Location ByteArray) (d' : Disk) : Prop where
  keepsDirs : d.KeepsDirs d'
  file_iff : ∀ (l : Location) (bytes : ByteArray), d'.entry? l = some (.file bytes) ↔
    ((Keyed.get? ws.reverse l).map Entry.file).or (d.entry? l) = some (.file bytes)

namespace Overwrites

variable {ws ws' : Keyed Location ByteArray} {l : Location} {bytes : ByteArray}

theorem refl (d : Disk) : d.Overwrites [] d := ⟨.refl d, by simp [Keyed.get?]⟩

theorem of_addsDirs (h : d.AddsDirs d') : d.Overwrites [] d' :=
  ⟨h.grows.keepsDirs, fun l bytes => by simpa [Keyed.get?] using h.entry?_file_iff⟩

theorem of_put (h : d.entry? l ≠ some .dir) (bytes : ByteArray) :
    d.Overwrites [(l, bytes)] (d.put l (.file bytes)) := by
  have hl := ne_nil_of_not_dir h
  refine ⟨⟨rfl, fun {m} hm => ?_⟩, fun m b => ?_⟩
  · have hlm : l ≠ m := by
      rintro rfl
      exact h hm
    rw [entry?_put hl, if_neg hlm, hm]
  · rw [entry?_put hl]
    by_cases hlm : l = m <;> simp [Keyed.get?, hlm]

theorem append (h : d.Overwrites ws d') (h' : d'.Overwrites ws' d'') :
    d.Overwrites (ws ++ ws') d'' := by
  refine ⟨h.keepsDirs.trans h'.keepsDirs, fun l bytes => ?_⟩
  rw [h'.file_iff, List.reverse_append, Keyed.get?_append]
  cases Keyed.get? ws'.reverse l with
  | some b => simp
  | none => simpa using h.file_iff l bytes

/-- A file that nothing was written over is the one that was there. -/
theorem file_iff_of_notMem (h : d.Overwrites ws d') (hl : l ∉ ws.keys) :
    d'.entry? l = some (.file bytes) ↔ d.entry? l = some (.file bytes) := by
  have hn : Keyed.get? ws.reverse l = none := by
    rw [Keyed.get?_eq_none_iff, Keyed.keys_reverse]
    simpa using hl
  rw [h.file_iff, hn]
  simp

/-- What was written last is there. -/
theorem file_of_get? (h : d.Overwrites ws d') (hb : Keyed.get? ws.reverse l = some bytes) :
    d'.entry? l = some (.file bytes) := by
  rw [h.file_iff, hb]
  rfl

/-- Where something was written, there is a last write. -/
theorem exists_get?_of_mem (hl : l ∈ ws.keys) : ∃ bytes, Keyed.get? ws.reverse l = some bytes := by
  rw [← Option.ne_none_iff_exists', Ne, Keyed.get?_eq_none_iff, Keyed.keys_reverse]
  simpa using hl

/-- A file stays a file. -/
theorem file_of_file (h : d.Overwrites ws d') (he : d.entry? l = some (.file bytes)) :
    ∃ bytes, d'.entry? l = some (.file bytes) := by
  cases hg : Keyed.get? ws.reverse l with
  | some b => exact ⟨b, h.file_of_get? hg⟩
  | none => exact ⟨bytes, (h.file_iff l bytes).2 (by simp [hg, he])⟩

/-- A source that nothing was written over reads as before. -/
theorem readText_of_notMem (h : d.Overwrites ws d') {p : Path} {s : String}
    (hp : p.location d.cwd ∉ ws.keys) (hr : d.readText p = .ok s) : d'.readText p = .ok s := by
  obtain ⟨bytes, hb, hs⟩ := read_of_readText hr
  exact readText_of_read (h.keepsDirs.read hb
    ((h.file_iff_of_notMem hp).2 (lookup_eq (lookup_of_read hb)).2)) hs

end Overwrites

/-- Puts files, one after the other. -/
def puts (d : Disk) (ws : Keyed Location ByteArray) : Disk :=
  ws.foldl (fun d w => d.put w.1 (.file w.2)) d

theorem get?_puts (d : Disk) (ws : Keyed Location ByteArray) (l : Location) :
    (d.puts ws).entries.get? l =
      ((Keyed.get? ws.reverse l).map Entry.file).or (d.entries.get? l) := by
  induction ws generalizing d with
  | nil => rfl
  | cons w ws ih =>
    obtain ⟨m, b⟩ := w
    have hrec := ih (d.put m (.file b))
    rw [puts, List.foldl_cons]
    rw [puts] at hrec
    rw [hrec, List.reverse_cons, Keyed.get?_append]
    by_cases hm : m = l <;> cases Keyed.get? ws.reverse l <;>
      simp [put, Keyed.get?_put, Keyed.get?, hm]

theorem keys_puts (d : Disk) {ws : Keyed Location ByteArray}
    (h : ∀ l ∈ ws.keys, l ∈ d.entries.keys) : (d.puts ws).entries.keys = d.entries.keys := by
  induction ws generalizing d with
  | nil => rfl
  | cons w ws ih =>
    obtain ⟨hw, hws⟩ := List.forall_mem_cons.1 h
    have hk : (d.put w.1 (.file w.2)).entries.keys = d.entries.keys := by
      rw [put, Keyed.keys_put, if_pos hw]
    rw [puts, List.foldl_cons]
    rw [← hk]
    exact ih _ (hk.symm ▸ hws)

/-- Nothing changes where every file holds already what is put there last. -/
theorem puts_eq_self {ws : Keyed Location ByteArray} (hd : d.entries.Distinct)
    (h : ∀ l bytes, Keyed.get? ws.reverse l = some bytes → d.entry? l = some (.file bytes)) :
    d.puts ws = d := by
  have stored : ∀ l bytes, Keyed.get? ws.reverse l = some bytes →
      d.entries.get? l = some (.file bytes) := by
    intro l bytes hb
    have he := h l bytes hb
    have hl : l ≠ [] := ne_nil_of_not_dir (d := d) (by simp [he])
    simpa [ entry?, hl] using he
  have hkeys : (d.puts ws).entries.keys = d.entries.keys := by
    refine keys_puts d fun l hl => ?_
    obtain ⟨bytes, hb⟩ := Overwrites.exists_get?_of_mem hl
    have hne : d.entries.get? l ≠ none := by simp [stored l bytes hb]
    exact Classical.not_not.1 (mt Keyed.get?_eq_none_iff.2 hne)
  have hentries : (d.puts ws).entries = d.entries := by
    have hdistinct : (d.puts ws).entries.Distinct := by
      unfold Keyed.Distinct
      rw [hkeys]
      exact hd
    refine hdistinct.eq_of_get? hkeys fun l => ?_
    rw [get?_puts]
    cases hg : Keyed.get? ws.reverse l with
    | none => rfl
    | some bytes => exact (stored l bytes hg).symm
  have hcwd : (d.puts ws).cwd = d.cwd := by
    have all : ∀ (vs : Keyed Location ByteArray) (e : Disk), (e.puts vs).cwd = e.cwd := by
      intro vs
      induction vs with
      | nil => exact fun _ => rfl
      | cons v vs ih => exact fun e => ih (e.put v.1 (.file v.2))
    exact all ws d
  calc d.puts ws = ⟨(d.puts ws).entries, (d.puts ws).cwd⟩ := rfl
    _ = d := by rw [hentries, hcwd]

end Disk
end StepTrace
