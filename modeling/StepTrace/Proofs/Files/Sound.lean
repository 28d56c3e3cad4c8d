import Mathlib.Data.List.Induction
import StepTrace.Proofs.Files.Components
import StepTrace.Proofs.Files.Overwrite

/-!
The table of a disk as a tree. What a path leads to has names that a file may have, and a directory above
it; so whatever is created or written by a path keeps the table a tree.
-/
namespace StepTrace

namespace Path

theorem isName_iff {s : String} :
    IsName s ↔ s ≠ "" ∧ s ≠ "." ∧ s ≠ ".." ∧ '/' ∉ s.toList :=
  ⟨fun h => ⟨h.ne_empty, h.ne_current, h.ne_parent, h.no_slash⟩, fun h => ⟨h.1, h.2.1, h.2.2.1, h.2.2.2⟩⟩

instance (s : String) : Decidable (IsName s) := decidable_of_iff' _ isName_iff

end Path

namespace Disk

/-- A table of files and directories that each have a directory above them. -/
structure Sound (d : Disk) : Prop where
  distinct : d.entries.Distinct
  ne_nil : [] ∉ d.entries.keys
  named : ∀ l ∈ d.entries.keys, ∀ s ∈ l, Path.IsName s ∧ s.utf8ByteSize ≤ nameLimit
  above : ∀ l ∈ d.entries.keys, d.entry? l.dropLast = some .dir
  cwd : d.entry? d.cwd = some .dir

theorem sound_iff {d : Disk} : d.Sound ↔
    d.entries.Distinct ∧ [] ∉ d.entries.keys ∧
      (∀ l ∈ d.entries.keys, ∀ s ∈ l, Path.IsName s ∧ s.utf8ByteSize ≤ nameLimit) ∧
      (∀ l ∈ d.entries.keys, d.entry? l.dropLast = some .dir) ∧ d.entry? d.cwd = some .dir :=
  ⟨fun h => ⟨h.distinct, h.ne_nil, h.named, h.above, h.cwd⟩,
    fun h => ⟨h.1, h.2.1, h.2.2.1, h.2.2.2.1, h.2.2.2.2⟩⟩

instance (d : Disk) : Decidable d.Sound := decidable_of_iff' _ sound_iff

theorem mem_keys_of_entry?_eq {d : Disk} {l : Location} {e : Entry} (h : d.entry? l = some e) :
    l = [] ∨ l ∈ d.entries.keys := by
  unfold entry? at h
  split at h
  · next hl => exact Or.inl hl
  · exact Or.inr (List.mem_map.2 ⟨_, Keyed.mem_of_get? h, rfl⟩)

/-- A location whose names a file may have, below a directory. -/
structure IsPlace (d : Disk) (l : Location) : Prop where
  named : ∀ s ∈ l, Path.IsName s ∧ s.utf8ByteSize ≤ nameLimit
  above : d.entry? l.dropLast = some .dir

namespace Sound

variable {d d' : Disk}

theorem entry?_of_mem (h : d.Sound) {l : Location} {e : Entry} (hm : (l, e) ∈ d.entries) :
    d.entry? l = some e := by
  have hk : l ∈ d.entries.keys := List.mem_map.2 ⟨_, hm, rfl⟩
  have hl : l ≠ [] := fun hl => h.ne_nil (hl ▸ hk)
  rw [ entry?, if_neg hl, h.distinct.get?_of_mem hm]

theorem isPlace (h : d.Sound) {l : Location} {e : Entry} (he : d.entry? l = some e) : d.IsPlace l := by
  rcases mem_keys_of_entry?_eq he with rfl | hk
  · exact ⟨by simp, rfl⟩
  · exact ⟨h.named l hk, h.above l hk⟩

/-- What is above something that is there is a directory. -/
theorem dir_of_append (h : d.Sound) {l : Location} {names : List String} {e : Entry}
    (he : d.entry? (l ++ names) = some e) (hne : names ≠ []) : d.entry? l = some .dir := by
  induction names using List.reverseRecOn generalizing e with
  | nil => exact absurd rfl hne
  | append_singleton names s ih =>
    have hdir : d.entry? (l ++ names) = some .dir := by
      simpa [← List.append_assoc] using (h.isPlace he).above
    by_cases hn : names = []
    · simpa [hn] using hdir
    · exact ih hdir hn

/-! ### Where paths lead -/

theorem advance (h : d.Sound) {here l : Location} {c : Path.Component}
    (hc : ∀ s, c = .name s → Path.IsName s) (hh : d.IsPlace here) (ha : d.advance here c = .ok l) :
    d.IsPlace l := by
  have hdir := dir_of_advance ha
  unfold Disk.advance at ha
  rw [hdir] at ha
  cases c with
  | root =>
    cases ha
    exact ⟨by simp, rfl⟩
  | current =>
    cases ha
    exact hh
  | parent =>
    cases ha
    exact h.isPlace hh.above
  | name s =>
    simp only at ha
    split at ha
    · cases ha
    · next hs =>
      cases ha
      refine ⟨fun t ht => ?_, by simpa using hdir⟩
      rcases List.mem_append.1 ht with ht | ht
      · exact hh.named t ht
      · obtain rfl := List.mem_singleton.1 ht
        exact ⟨hc t rfl, Nat.not_lt.1 hs⟩

/-- Where a path leads there may be a file. -/
theorem isPlace_of_resolve (h : d.Sound) {p : Path} {l : Location} (hr : d.resolve p = .ok l) :
    d.IsPlace l := by
  have way : ∀ (cs : List Path.Component) (here : Location), (∀ s, .name s ∈ cs → Path.IsName s) →
      d.IsPlace here → cs.foldlM d.advance here = .ok l → d.IsPlace l := by
    intro cs
    induction cs with
    | nil =>
      intro here _ hh hf
      cases hf
      exact hh
    | cons c cs ih =>
      intro here hcs hh hf
      rw [List.foldlM_cons] at hf
      cases ha : d.advance here c with
      | error e => simp [bind, Except.bind, ha] at hf
      | ok next =>
        rw [ha] at hf
        have hnext := h.advance (fun s hs => hcs s (by simp [hs])) hh ha
        exact ih next (fun s hs => hcs s (List.mem_cons_of_mem _ hs)) hnext hf
  exact way _ _ (fun _ => Path.isName_of_mem_components) (h.isPlace h.cwd) (resolve_eq_ok_iff.1 hr).2

/-! ### What keeps a tree -/

theorem put (h : d.Sound) {p : Path} {l : Location} (hr : d.resolve p = .ok l)
    (hl : d.entry? l ≠ some .dir) (e : Entry) : (d.put l e).Sound := by
  have hne := ne_nil_of_not_dir hl
  have hplace := h.isPlace_of_resolve hr
  have stays : ∀ {m : Location}, d.entry? m = some .dir → entry? (d.put l e) m = some .dir := by
    intro m hm
    have hlm : l ≠ m := by
      rintro rfl
      exact hl hm
    rw [entry?_put hne, if_neg hlm, hm]
  have key : ∀ {m : Location}, m ∈ (d.put l e).entries.keys → m ∈ d.entries.keys ∨ m = l :=
    fun hm => (Keyed.mem_keys_put _ _ _ _).1 hm
  refine ⟨h.distinct.put l e, fun hm => ?_, fun m hm => ?_, fun m hm => ?_, stays h.cwd⟩
  · exact (key hm).elim h.ne_nil (Ne.symm hne)
  · rcases key hm with hm | rfl
    · exact h.named m hm
    · exact hplace.named
  · rcases key hm with hm | rfl
    · exact stays (h.above m hm)
    · exact stays hplace.above

theorem createDir (h : d.Sound) {p : Path} (hd : d.createDir p = .ok d') : d'.Sound := by
  obtain ⟨hr, hn, rfl⟩ := createDir_eq_ok_iff.1 hd
  exact h.put hr (by simp [hn]) .dir

theorem createDirs (h : d.Sound) (ps : List Path) : (d.createDirs ps).1.Sound := by
  induction ps generalizing d with
  | nil => exact h
  | cons p above ih =>
    have habove := ih h
    simp only [Disk.createDirs]
    split
    · exact h
    · split
      · next hd => exact h.createDir hd
      · split
        · next hd => simpa [hd] using habove
        · next hd =>
          have hs := by simpa [hd] using habove
          split
          · next hd' => exact hs.createDir hd'
          · exact hs
      · exact h

theorem createDirAll (h : d.Sound) (p : Path) : (d.createDirAll p).1.Sound := h.createDirs _

theorem write (h : d.Sound) {p : Path} {bytes : ByteArray} (hw : d.write p bytes = .ok d') :
    d'.Sound := by
  obtain ⟨hr, hdir, -, rfl⟩ := write_eq_ok_iff.1 hw
  exact h.put hr hdir _

/-! ### Reading below a directory -/

theorem foldlM_names (h : d.Sound) {here : Location} {names : List String} {e : Entry}
    (he : d.entry? (here ++ names) = some e) :
    (names.map Path.Component.name).foldlM d.advance here = .ok (here ++ names) := by
  induction names generalizing here with
  | nil => simp [pure, Except.pure]
  | cons s names ih =>
    have hdir := h.dir_of_append he (by simp)
    have hs := ((h.isPlace he).named s (by simp)).2
    have ha : d.advance here (.name s) = .ok (here ++ [s]) := by
      simp [Disk.advance, hdir, Nat.not_lt.2 hs]
    have hrest := @ih (here ++ [s]) (by simpa using he)
    rw [List.map_cons, List.foldlM_cons, ha]
    simpa [bind, Except.bind] using hrest

/-- Everything below a directory can be reached by a path that is short enough. -/
theorem resolve_below (h : d.Sound) {root : Path} (hroot : d.isDir root) {names : List String}
    {e : Entry} (he : d.entry? (root.location d.cwd ++ names) = some e)
    (hu : IsUsable (root.join (.ofNames names))) :
    d.resolve (root.join (.ofNames names)) = .ok (root.location d.cwd ++ names) := by
  have hnames : ∀ s ∈ names, Path.IsName s := fun s hs =>
    ((h.isPlace he).named s (List.mem_append_right _ hs)).1
  obtain ⟨hlead, hcomps⟩ := Path.components_ofNames hnames
  have htop := (resolve_eq_ok_iff.1 (lookup_eq (isDir_iff.1 hroot)).1).2
  refine resolve_eq_ok_iff.2 ⟨hu, ?_⟩
  rw [Path.components_join_of_lead root hlead, hcomps, List.foldlM_append, htop]
  exact h.foldlM_names he

/-- What is below a directory of a tree can be read before other files are written if it can be read after. -/
theorem readText_below (sound : d.Sound) {root : Path} (hroot : d.isDir root)
    {ws : Keyed Location ByteArray} (h : d.Overwrites ws d') {names : List String} {e : Entry}
    (he : d.entry? (root.location d.cwd ++ names) = some e)
    (hn : (root.join (.ofNames names)).location d.cwd ∉ ws.keys) {s : String}
    (hs : d'.readText (root.join (.ofNames names)) = .ok s) :
    d.readText (root.join (.ofNames names)) = .ok s := by
  have hnames : ∀ s ∈ names, Path.IsName s := fun s hs =>
    ((sound.isPlace he).named s (List.mem_append_right _ hs)).1
  obtain ⟨bytes, hb, hs⟩ := read_of_readText hs
  have hlookup := lookup_of_read hb
  obtain ⟨hr, hfile⟩ := lookup_eq hlookup
  rw [h.keepsDirs.cwd_eq, h.file_iff_of_notMem hn] at hfile
  have hresolve := sound.resolve_below hroot he (resolve_eq_ok_iff.1 hr).1
  rw [← Path.location_join_ofNames d.cwd root hnames] at hresolve
  exact readText_of_read (read_of_file hresolve hfile (meansFile_of_lookup hlookup)) hs

end Sound

end Disk
end StepTrace
