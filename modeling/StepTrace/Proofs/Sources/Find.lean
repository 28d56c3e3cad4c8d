import Mathlib.Data.List.Lex
import Mathlib.Data.List.Nodup
import Mathlib.Data.String.Basic
import StepTrace.Proofs.Sources.Naming
import StepTrace.Sources.Instrument

/-!
The files that are found below a directory. They come in the strict order of their components, so the list
is told by the files that are in it.
-/
namespace StepTrace

namespace Path

/-! ### The order of paths -/

namespace Component

theorem before_iff {a b : Component} :
    a.before b ↔ a.rank < b.rank ∨ ∃ s t, a = name s ∧ b = name t ∧ s < t := by
  cases a <;> cases b <;> simp [before, rank]

theorem eq_of_rank_eq {a b : Component} (h : a.rank = b.rank) :
    a = b ∨ ∃ s t, a = name s ∧ b = name t := by
  cases a <;> cases b <;> simp [rank] at h ⊢

instance : Std.Asymm fun a b : Component => a.before b = true where
  asymm a b hab hba := by
    rcases before_iff.1 hab with hab | ⟨s, t, rfl, rfl, hst⟩ <;>
      rcases before_iff.1 hba with hba | ⟨s', t', hs', ht', hst'⟩
    · omega
    · simp [hs', ht', rank] at hab
    · simp [rank] at hba
    · cases hs'
      cases ht'
      exact lt_asymm hst hst'

instance : Std.Trichotomous fun a b : Component => a.before b = true where
  trichotomous a b hab hba := by
    rw [before_iff, not_or] at hab hba
    rcases eq_of_rank_eq (Nat.le_antisymm (Nat.not_lt.1 hba.1) (Nat.not_lt.1 hab.1)) with
      rfl | ⟨s, t, rfl, rfl⟩
    · rfl
    · exact congrArg name (le_antisymm (not_lt.1 fun h => hba.2 ⟨t, s, rfl, rfl, h⟩)
        (not_lt.1 fun h => hab.2 ⟨s, t, rfl, rfl, h⟩))

instance : IsOrderConnected Component fun a b => a.before b = true where
  conn a b c hac := by
    simp only [before_iff] at hac ⊢
    rcases hac with hac | ⟨s, t, rfl, rfl, hst⟩
    · rcases Nat.lt_or_ge a.rank b.rank with h | h
      · exact Or.inl (Or.inl h)
      · exact Or.inr (Or.inl (h.trans_lt hac))
    · cases b with
      | name r =>
        rcases lt_or_ge s r with h | h
        · exact Or.inl (Or.inr ⟨s, r, rfl, rfl, h⟩)
        · exact Or.inr (Or.inr ⟨r, t, rfl, rfl, h.trans_lt hst⟩)
      | _ => exact Or.inr (Or.inl (by simp [rank]))

end Component

theorem componentsBefore_iff_lex {cs ds : List Component} :
    componentsBefore cs ds ↔ List.Lex (fun a b => a.before b = true) cs ds := by
  induction cs generalizing ds with
  | nil => cases ds <;> simp [componentsBefore]
  | cons c cs ih =>
    cases ds with
    | nil => simp [componentsBefore]
    | cons d ds =>
      by_cases h : c = d
      · subst h
        rw [List.lex_cons_iff, ← ih]
        simp [componentsBefore]
      · simp only [componentsBefore, h, if_false]
        refine ⟨fun hb => .rel hb, fun hl => ?_⟩
        cases hl with
        | rel hl => exact hl
        | cons => exact absurd rfl h

theorem le_iff {p q : Path} :
    p.le q ↔ ¬ List.Lex (fun a b => a.before b = true) q.components p.components := by
  rw [le, Bool.not_eq_true', ← componentsBefore_iff_lex, Bool.not_eq_true]

theorem le_total (p q : Path) : p.le q || q.le p := by
  rw [Bool.or_eq_true, le_iff, le_iff]
  by_cases h : List.Lex (fun a b => a.before b = true) q.components p.components
  · exact Or.inr (asymm h)
  · exact Or.inl h

theorem le_trans (p q r : Path) (hpq : p.le q) (hqr : q.le r) : p.le r := by
  rw [le_iff] at *
  intro hrp
  exact (IsOrderConnected.conn _ q.components _ hrp).elim hqr hpq

theorem le_antisymm {p q : Path} (hpq : p.le q) (hqp : q.le p) : p.components = q.components := by
  rw [le_iff] at hpq hqp
  exact Std.Trichotomous.trichotomous _ _ hqp hpq

theorem nodup_of_pairwise_componentsBefore {ps : List Path}
    (h : ps.Pairwise fun p q => componentsBefore p.components q.components) : ps.Nodup := by
  refine h.imp fun {p q} hpq => ?_
  rintro rfl
  exact asymm (componentsBefore_iff_lex.1 hpq) (componentsBefore_iff_lex.1 hpq)

/-- Paths in strict order are told by which there are. -/
theorem eq_of_pairwise_componentsBefore {ps qs : List Path}
    (hp : ps.Pairwise fun p q => componentsBefore p.components q.components)
    (hq : qs.Pairwise fun p q => componentsBefore p.components q.components)
    (h : ∀ p, p ∈ ps ↔ p ∈ qs) : ps = qs := by
  refine List.Perm.eq_of_pairwise (fun p q _ _ hpq hqp => ?_) hp hq
    ((List.perm_ext_iff_of_nodup (nodup_of_pairwise_componentsBefore hp)
      (nodup_of_pairwise_componentsBefore hq)).2 h)
  exact absurd (componentsBefore_iff_lex.1 hqp) (asymm (componentsBefore_iff_lex.1 hpq))

/-! ### What is left of components -/

theorem stripComponents?_eq_some {cs ds rest : List Component} :
    stripComponents? cs ds = some rest ↔ cs = ds ++ rest := by
  induction ds generalizing cs with
  | nil => simp [stripComponents?]
  | cons d ds ih =>
    cases cs with
    | nil => simp [stripComponents?]
    | cons c cs => by_cases h : c = d <;> simp [stripComponents?, h, ih]

end Path

namespace Sources

open StepTrace.Path

variable {d : Disk} {root out : Path} {patterns : List String}

/-- Whether a file with these names is wanted. -/
def isChosen (globs : List Glob) (names : List String) : Bool :=
  !names.contains packageDir && globs.any (·.matchesPath (ofNames names).text)

/-- The names that lead to a file below a directory. -/
def LeadsToFile (d : Disk) (root : Path) (names : List String) : Prop :=
  ∃ bytes, d.entry? (root.location d.cwd ++ names) = some (.file bytes)

theorem LeadsToFile.isName (sound : d.Sound) {names : List String} (h : LeadsToFile d root names) :
    ∀ s ∈ names, IsName s := by
  obtain ⟨bytes, he⟩ := h
  exact fun s hs => ((sound.isPlace he).named s (List.mem_append_right _ hs)).1

theorem nodup_filesBelow (h : d.entries.Distinct) {files : List (List String)}
    (hf : d.filesBelow root = .ok files) : files.Nodup := by
  unfold Disk.filesBelow at hf
  cases hl : d.lookup root with
  | error e => simp [bind, Except.bind, hl] at hf
  | ok e =>
    simp only [bind, Except.bind, hl, (Disk.lookup_eq hl).1] at hf
    cases hf
    -- with the way to the directory before them the files are some of the keys
    refine List.Nodup.of_map (root.location d.cwd ++ ·) (List.Sublist.nodup ?_ h)
    clear h
    unfold Keyed.keys
    generalize d.entries = entries
    induction entries with
    | nil => exact .slnil
    | cons w entries ih =>
      obtain ⟨l, bytes | _⟩ := w
      · cases hu : Disk.under? (root.location d.cwd) l with
        | none => simpa [hu] using ih.cons l
        | some names =>
          obtain rfl := Disk.under?_eq_some.1 hu
          simpa [hu] using ih.cons_cons (root.location d.cwd ++ names)
      · simpa using ih.cons l

/-- The files that are wanted, in the order of the disk. -/
def gathered (d : Disk) (root : Path) (globs : List Glob) : Except Failure (List Path) :=
  match d.filesBelow root with
  | .error e => .error (.file e)
  | .ok files => .ok ((files.filter (isChosen globs)).map ofNames)

theorem find_eq {globs : List Glob} (hg : readPatterns patterns = .ok globs) :
    find d root patterns = (gathered d root globs).map (·.mergeSort Path.le) := by
  unfold find gathered
  rw [hg]
  cases d.filesBelow root <;> rfl

/-- The files that are found are those below the directory that are wanted, each once and in order. -/
theorem exists_find (sound : d.Sound) (hroot : d.isDir root) {globs : List Glob}
    (hg : readPatterns patterns = .ok globs) :
    ∃ found, find d root patterns = .ok found ∧
      (found.Pairwise fun p q => componentsBefore p.components q.components) ∧
      ∀ p, p ∈ found ↔ ∃ names, p = ofNames names ∧ LeadsToFile d root names ∧ isChosen globs names := by
  obtain ⟨files, hfiles, hmem⟩ := Disk.mem_filesBelow hroot
  have leads : ∀ names, names ∈ files ↔ LeadsToFile d root names := fun names =>
    (hmem names).trans ⟨fun ⟨b, hb⟩ => ⟨b, sound.entry?_of_mem hb⟩,
      fun ⟨b, hb⟩ => ⟨b, Disk.mem_of_entry?_eq_file hb⟩⟩
  have hgathered : gathered d root globs = .ok ((files.filter (isChosen globs)).map ofNames) := by
    simp only [gathered, hfiles]
  have chosen : ∀ p, p ∈ (files.filter (isChosen globs)).map ofNames ↔
      ∃ names, p = ofNames names ∧ LeadsToFile d root names ∧ isChosen globs names := by
    intro p
    simp only [List.mem_map, List.mem_filter, leads]
    exact ⟨fun ⟨names, h, hp⟩ => ⟨names, hp.symm, h⟩, fun ⟨names, hp, h⟩ => ⟨names, h, hp.symm⟩⟩
  have hnodup : ((files.filter (isChosen globs)).map ofNames).Nodup := by
    refine List.Nodup.map_on (fun a ha b hb => ?_) ((nodup_filesBelow sound.distinct hfiles).filter _)
    have hname : ∀ {c}, c ∈ files.filter (isChosen globs) → ∀ s ∈ c, IsName s := fun hc =>
      ((leads _).1 (List.mem_of_mem_filter hc)).isName sound
    exact ofNames_injective (hname ha) (hname hb)
  have hperm := List.mergeSort_perm ((files.filter (isChosen globs)).map ofNames) Path.le
  refine ⟨_, by rw [find_eq hg, hgathered]; rfl, ?_, fun p => ?_⟩
  · have hsorted := List.pairwise_mergeSort le_trans le_total
      ((files.filter (isChosen globs)).map ofNames)
    refine (hsorted.and (hperm.symm.nodup hnodup)).imp_of_mem fun {p q} hp hq hpq => ?_
    obtain ⟨a, rfl, ha, -⟩ := (chosen p).1 (hperm.mem_iff.1 hp)
    obtain ⟨b, rfl, hb, -⟩ := (chosen q).1 (hperm.mem_iff.1 hq)
    by_contra hn
    have hc := le_antisymm hpq.1 (by simpa [le] using hn)
    rw [(components_ofNames (ha.isName sound)).2, (components_ofNames (hb.isName sound)).2] at hc
    exact hpq.2 (congrArg ofNames ((List.map_inj_right fun _ _ => Component.name.inj).1 hc))
  · rw [← chosen p]
    exact hperm.mem_iff

/-! ### What is instrumented -/

/-- The patterns that files are wanted by. -/
def wanted (patterns : List String) : List String :=
  if patterns.isEmpty then defaultPatterns else patterns

/-- The files that instrumenting a directory takes: what it finds there, without an earlier output. -/
def sources (d : Disk) (root : Path) (patterns : List String) (out : Path) :
    Except Failure (List Path) :=
  (find d root (wanted patterns)).map
    (·.filter (!isOutput root out ·))

/-- Where the files come in order already, they are taken in this order. -/
theorem sources_of_pairwise (ps : List Path)
    (hps : (readPatterns (wanted patterns)).bind (gathered d root) = .ok ps)
    (hordered : ps.Pairwise fun p q => p.le q) :
    sources d root patterns out = .ok (ps.filter (!isOutput root out ·)) := by
  cases hg : readPatterns (wanted patterns) with
  | error e =>
    rw [hg] at hps
    cases hps
  | ok globs =>
    have hgathered : gathered d root globs = .ok ps := by
      rw [hg] at hps
      exact hps
    rw [sources, find_eq hg, hgathered]
    simp [Except.map, List.mergeSort_of_pairwise hordered]

theorem instrumentTree_eq (hroot : d.isDir root) (patterns : List String) (out : Path) :
    instrumentTree d root patterns out =
      match sources d root patterns out with
      | .error e => (d, .error e)
      | .ok ps => instrumentAll d root out ps := by
  unfold instrumentTree sources wanted
  simp only [hroot, Bool.not_true, Bool.false_eq_true, if_false]
  cases find d root (if patterns.isEmpty then defaultPatterns else patterns) <;> rfl

/-- The files that are taken, with the patterns that they are taken by. -/
structure Takes (d : Disk) (root : Path) (patterns : List String) (out : Path) (ps : List Path) :
    Prop where
  ordered : ps.Pairwise fun p q => componentsBefore p.components q.components
  mem_iff : ∃ globs, readPatterns (wanted patterns) = .ok globs ∧
    ∀ p, p ∈ ps ↔ ∃ names, p = ofNames names ∧ LeadsToFile d root names ∧ isChosen globs names ∧
      isOutput root out p = false

theorem Takes.nodup {ps : List Path} (h : Takes d root patterns out ps) : ps.Nodup :=
  nodup_of_pairwise_componentsBefore h.ordered

theorem sources_eq_ok_iff (sound : d.Sound) (hroot : d.isDir root) {ps : List Path} :
    sources d root patterns out = .ok ps ↔ Takes d root patterns out ps := by
  cases hg : readPatterns (wanted patterns) with
  | error e =>
    refine ⟨fun h => ?_, fun ⟨_, globs, hglobs, _⟩ => by simp [hg] at hglobs⟩
    have hfind : find d root (wanted patterns) = .error e := by
      simp only [find, hg]
      rfl
    simp [sources, hfind, Except.map] at h
  | ok globs =>
    obtain ⟨found, hfound, hordered, hmem⟩ := exists_find sound hroot hg
    have hsources : sources d root patterns out = .ok (found.filter (!isOutput root out ·)) := by
      simp [sources, hfound, Except.map]
    have htakes : Takes d root patterns out (found.filter (!isOutput root out ·)) := by
      refine ⟨hordered.filter _, globs, hg, fun p => ?_⟩
      rw [List.mem_filter, hmem, Bool.not_eq_true']
      exact ⟨fun ⟨⟨names, hp, hl, hc⟩, ho⟩ => ⟨names, hp, hl, hc, ho⟩,
        fun ⟨names, hp, hl, hc, ho⟩ => ⟨⟨names, hp, hl, hc⟩, ho⟩⟩
    rw [hsources, Except.ok.injEq]
    refine ⟨fun h => h ▸ htakes, fun ⟨hps, globs', hg', hmem'⟩ => ?_⟩
    obtain rfl : globs = globs' := Except.ok.inj (hg.symm.trans hg')
    refine eq_of_pairwise_componentsBefore (hordered.filter _) hps fun p => ?_
    obtain ⟨-, globs'', hg'', hmem''⟩ := htakes
    obtain rfl : globs = globs'' := Except.ok.inj (hg.symm.trans hg'')
    rw [hmem', hmem'']

/-- What lies in an output directory inside the root is told by its names. -/
theorem isOutput_ofNames {inside names : List String} (hin : inside ≠ [])
    (hout : out.components = root.components ++ inside.map .name) (hn : ∀ s ∈ names, IsName s) :
    isOutput root out (ofNames names) ↔ inside <+: names := by
  have hbelow : out.below? root = some (inside.map .name) := stripComponents?_eq_some.2 hout
  obtain ⟨s, inside, rfl⟩ := List.exists_cons_of_ne_nil hin
  unfold isOutput
  rw [hbelow, List.map_cons]
  simp only
  rw [Option.isSome_iff_exists, (components_ofNames hn).2, ← List.map_cons,
    ← List.prefix_map_iff_of_injective (f := Component.name) fun _ _ => Component.name.inj]
  exact exists_congr fun rest => stripComponents?_eq_some.trans eq_comm

/-- Every wanted file in the output directory is left out. -/
def Recognizes (cwd : Location) (root : Path) (patterns : List String) (out : Path) : Prop :=
  ∀ globs, readPatterns (wanted patterns) = .ok globs →
    ∀ names, (∀ s ∈ names, IsName s) → isChosen globs names →
      out.location cwd <+: root.location cwd ++ names → isOutput root out (ofNames names)

/-- An output directory inside the root is recognized by its spelling. -/
theorem recognizes_of_components (inside : List String) (hne : inside ≠ [])
    (hout : out.components = root.components ++ inside.map .name) (cwd : Location)
    (patterns : List String) : Recognizes cwd root patterns out := by
  have hlocation : out.location cwd = root.location cwd ++ inside := by
    rw [location, hout, List.foldl_append, foldl_target_names]
    rfl
  rintro globs - names hn - ⟨rest, hr⟩
  rw [hlocation, List.append_assoc] at hr
  exact (isOutput_ofNames hne hout hn).2 ⟨rest, List.append_cancel_left hr⟩

/-- An output directory is recognized if it is neither in the root nor above it. -/
theorem recognizes_of_apart {cwd : Location} (h : ¬ root.location cwd <+: out.location cwd)
    (h' : ¬ out.location cwd <+: root.location cwd) (patterns : List String) :
    Recognizes cwd root patterns out := by
  rintro globs - names - - hp
  rcases prefix_append_cases hp with hp | ⟨m, -, -, hm⟩
  · exact absurd hp h'
  · exact absurd ⟨m, hm.symm⟩ h

end Sources

end StepTrace
