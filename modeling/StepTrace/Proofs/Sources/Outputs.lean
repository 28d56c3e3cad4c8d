import StepTrace.Proofs.Sources.Delivery

/-!
What instrumenting a directory leaves. No result is lost as long as no two files come out under one name,
and every result is that of its own file as long as no output lands on a file that is read after it.
-/
namespace StepTrace.Sources

open StepTrace.Path

variable {d d' : Disk} {root out : Path}

/-! ### Files that come out under one name -/

/-- No file is called what another one comes out as. -/
def Untwinned (ps : List Path) : Prop := ∀ p ∈ ps, plainPath p ∈ ps → plainPath p = p

instance (ps : List Path) : Decidable (Untwinned ps) :=
  inferInstanceAs (Decidable (∀ p ∈ ps, plainPath p ∈ ps → plainPath p = p))

/-- Different files come out under different names just if none is called what another comes out as. -/
theorem untwinned_iff {ps : List Path}
    (hps : ∀ p ∈ ps, ∃ names, p = ofNames names ∧ ∀ s ∈ names, IsName s) :
    Untwinned ps ↔ ∀ p ∈ ps, ∀ q ∈ ps, plainPath p = plainPath q → p = q := by
  constructor
  · intro h p hp q hq hpq
    obtain ⟨a, rfl, ha⟩ := hps p hp
    obtain ⟨b, rfl, hb⟩ := hps q hq
    rcases plainNames_eq_plainNames ((plainPath_eq_iff ha hb).1 hpq) with rfl | rfl | rfl
    · rfl
    · have hself := h _ hp (by rwa [plainPath_ofNames ha])
      rw [← hself, plainPath_ofNames ha]
    · have hself := h _ hq (by rwa [plainPath_ofNames hb])
      rw [← hself, plainPath_ofNames hb]
  · intro h p hp hq
    obtain ⟨a, rfl, ha⟩ := hps p hp
    have hself : plainPath (plainPath (ofNames a)) = plainPath (ofNames a) := by
      rw [plainPath_ofNames ha, plainPath_ofNames (isName_of_mem_plainNames ha),
        plainNames_plainNames]
    exact h _ hq _ hp hself

/-! ### A whole directory -/

theorem instrument_tree_of_sources (config : Config) (hroot : d.isDir root) {patterns : List String}
    {ps : List Path} (hs : sources d root patterns out = .ok ps) :
    instrument config d (.tree root patterns out) =
      ((instrumentAll d root out ps).1, (instrumentAll d root out ps).2.map .ofFiles) := by
  rw [instrument, instrumentTree_eq hroot, hs]
  simp only
  cases instrumentAll d root out ps with
  | mk e fs => cases fs <;> rfl

theorem instrument_tree_of_isOk (config : Config) (hroot : d.isDir root) {patterns : List String}
    {ps : List Path} (hs : sources d root patterns out = .ok ps)
    (hok : (instrumentAll d root out ps).2.isOk) :
    ∃ fs, (instrumentAll d root out ps).2 = .ok fs ∧
      instrument config d (.tree root patterns out) =
        ((instrumentAll d root out ps).1, .ok (.ofFiles fs)) := by
  rw [instrument_tree_of_sources config hroot hs]
  cases hfs : (instrumentAll d root out ps).2 with
  | error e =>
    rw [hfs] at hok
    cases hok
  | ok fs => exact ⟨fs, rfl, rfl⟩

theorem sources_of_instrument_tree {config : Config} {patterns : List String}
    {report : InstrumentReport} (h : instrument config d (.tree root patterns out) = (d', .ok report)) :
    d.isDir root ∧ ∃ ps, sources d root patterns out = .ok ps ∧
      instrumentAll d root out ps = (d', .ok report.files) ∧ report = .ofFiles report.files := by
  by_cases hroot : d.isDir root
  · refine ⟨hroot, ?_⟩
    cases hs : sources d root patterns out with
    | error e => simp [instrument, instrumentTree_eq hroot, hs] at h
    | ok ps =>
      rw [instrument_tree_of_sources config hroot hs] at h
      refine ⟨ps, rfl, ?_⟩
      cases hi : instrumentAll d root out ps with
      | mk e fs =>
        rw [hi] at h
        cases fs with
        | error f => simp [Except.map] at h
        | ok fs =>
          cases h
          exact ⟨rfl, rfl⟩
  · simp [instrument, instrumentTree, hroot] at h

theorem names_of_takes {patterns : List String} {ps : List Path} (h : Takes d root patterns out ps) :
    ∀ p ∈ ps, ∃ names, p = ofNames names ∧ LeadsToFile d root names := by
  obtain ⟨-, globs, -, hmem⟩ := h
  intro p hp
  obtain ⟨names, rfl, hl, -⟩ := (hmem p).1 hp
  exact ⟨names, rfl, hl⟩

theorem prefix_location_outputPath (sound : d.Sound) {patterns : List String} {ps : List Path}
    (h : Takes d root patterns out ps) :
    ∀ p ∈ ps, out.location d.cwd <+: (outputPath out p).location d.cwd := by
  intro p hp
  obtain ⟨names, rfl, hl⟩ := names_of_takes h p hp
  rw [location_outputPath d.cwd out (hl.isName sound)]
  exact List.prefix_append _ _

/-- Where the output directory is recognized, no output lands on a file that is taken. -/
theorem output_ne_source {patterns : List String} (hrec : Recognizes d.cwd root patterns out)
    (sound : d.Sound) {ps : List Path} (h : Takes d root patterns out ps) :
    ∀ p ∈ ps, ∀ q ∈ ps, (outputPath out p).location d.cwd ≠ (root.join q).location d.cwd := by
  intro p hp q hq hpq
  obtain ⟨globs, hg, hmem⟩ := h.mem_iff
  obtain ⟨names, rfl, hl, hc, ho⟩ := (hmem q).1 hq
  have hn := hl.isName sound
  have hprefix := prefix_location_outputPath sound h p hp
  rw [hpq, location_join_ofNames d.cwd root hn] at hprefix
  have hskipped := hrec globs hg names hn hc hprefix
  simp [ho] at hskipped

/-- A directory that is instrumented in its place is spared as long as no two files come out alike. -/
theorem spares_in_place (hplace : out.location d.cwd = root.location d.cwd) (sound : d.Sound)
    {patterns : List String} {ps : List Path} (h : Takes d root patterns out ps)
    (huntwinned : Untwinned ps) : Spares d.cwd root out ps := by
  refine h.nodup.imp_of_mem fun {p q} hp hq hne hpq => hne ?_
  obtain ⟨a, rfl, ha⟩ := names_of_takes h p hp
  obtain ⟨b, rfl, hb⟩ := names_of_takes h q hq
  rw [location_outputPath d.cwd out (ha.isName sound),
    location_join_ofNames d.cwd root (hb.isName sound), hplace, List.append_cancel_left_eq] at hpq
  have hplain : plainPath (ofNames a) = ofNames b := by
    rw [plainPath_ofNames (ha.isName sound), hpq]
  rw [← huntwinned _ hp (hplain ▸ hq), hplain]

/-- Instrumenting a directory reports different outputs just if no file that is taken is called what another
one comes out as. Then each output holds in the end the result of its own file, under the name of this
file, as long as no output landed on a file that was still to be read. -/
theorem outputs_of_tree {config : Config} {patterns : List String} {report : InstrumentReport}
    (sound : d.Sound) (h : instrument config d (.tree root patterns out) = (d', .ok report)) :
    ∃ ps, sources d root patterns out = .ok ps ∧
      ((report.files.map (·.output)).Nodup ↔ Untwinned ps) ∧
      (Untwinned ps → Spares d.cwd root out ps →
        List.Forall₂ (fun p f => ∃ text t, d.readText (root.join p) = .ok text ∧
            Script.instrument (dialectOf (root.join p)) (fileId p) text = .ok t ∧
            f = ⟨fileId p, (root.join p).text, some (outputPath out p).text, t.sites, none⟩ ∧
            d'.read (outputPath out p) = .ok t.code.toUTF8)
          ps report.files) := by
  obtain ⟨hroot, ps, hs, hall, -⟩ := sources_of_instrument_tree h
  have htakes := (sources_eq_ok_iff sound hroot).1 hs
  have hnames := names_of_takes htakes
  have hisName : ∀ p ∈ ps, ∃ names, p = ofNames names ∧ ∀ s ∈ names, IsName s := fun p hp =>
    (hnames p hp).imp fun names hn => ⟨hn.1, hn.2.isName sound⟩
  refine ⟨ps, hs, ?_, fun huntwinned hspares => ?_⟩
  · rw [outputs_of_instrumentAll hall, List.nodup_map_iff_inj_on htakes.nodup, untwinned_iff hisName]
    refine forall₂_congr fun p hp => forall₂_congr fun q hq => ?_
    obtain ⟨a, rfl, ha⟩ := hisName p hp
    obtain ⟨b, rfl, hb⟩ := hisName q hq
    have htext : some (outputPath out (ofNames a)).text = some (outputPath out (ofNames b)).text ↔
        plainPath (ofNames a) = plainPath (ofNames b) := by
      rw [Option.some.injEq, ← outputPath_eq_iff out ha hb]
      exact ⟨congrArg Path.mk, congrArg Path.text⟩
    rw [htext]
  · obtain ⟨ws, rfl, hfs, hws⟩ := delivers_of_instrumentAll sound hroot hnames hspares hall
    have hdistinct : Keyed.Distinct (ws.map (writeOf d.cwd out)) := by
      have hkeys : Keyed.keys (ws.map (writeOf d.cwd out)) =
          (ws.map Prod.fst).map fun p => (outputPath out p).location d.cwd := by
        simp [Keyed.keys, writeOf, Function.comp_def]
      rw [Keyed.Distinct, hkeys, List.nodup_map_iff_inj_on htakes.nodup]
      intro p hp q hq hpq
      refine (untwinned_iff hisName).1 huntwinned p hp q hq ?_
      obtain ⟨a, rfl, ha⟩ := hisName p hp
      obtain ⟨b, rfl, hb⟩ := hisName q hq
      exact (location_outputPath_eq_iff ha hb).1 hpq
    rw [← hfs, List.forall₂_map_left_iff, List.forall₂_map_right_iff, List.forall₂_same]
    intro w hw
    obtain ⟨text, htext, hi⟩ := traced?_eq_ok_iff.1 (hws.traced w hw)
    have hready := hws.ready w hw
    have hfile := hws.overwrites.file_of_get?
      (hdistinct.get?_reverse (List.mem_map_of_mem (f := writeOf d.cwd out) hw))
    rw [← hws.overwrites.keepsDirs.cwd_eq] at hfile
    exact ⟨text, w.2, htext, hi, rfl, Disk.read_of_file hready.leads hfile hready.meansFile⟩

/-- A file with types and one without, in different directories. -/
theorem outputs_of_tree_mixed :
    let d : Disk :=
      { entries := [(["tree"], .dir), (["tree", "a.ts"], .file "one();\n".toUTF8),
          (["tree", "sub"], .dir), (["tree", "sub", "b.js"], .file "two();\n".toUTF8)] }
    d.Sound ∧ ∃ d' report, instrument {} d (.tree ⟨"tree"⟩ [] ⟨"out"⟩) = (d', .ok report) ∧
      (report.files.map (·.output)).Nodup ∧
      List.Forall₂ (fun p f => ∃ text t, d.readText (join ⟨"tree"⟩ p) = .ok text ∧
          Script.instrument (dialectOf (join ⟨"tree"⟩ p)) (fileId p) text = .ok t ∧
          f = ⟨fileId p, (join ⟨"tree"⟩ p).text, some (outputPath ⟨"out"⟩ p).text, t.sites, none⟩ ∧
          d'.read (outputPath ⟨"out"⟩ p) = .ok t.code.toUTF8)
        [⟨"a.ts"⟩, ⟨"sub/b.js"⟩] report.files := by
  intro d
  have sound : d.Sound := by decide +kernel
  have hs : sources d ⟨"tree"⟩ [] ⟨"out"⟩ = .ok [⟨"a.ts"⟩, ⟨"sub/b.js"⟩] :=
    sources_of_pairwise [⟨"a.ts"⟩, ⟨"sub/b.js"⟩] (by decide +kernel) (by decide +kernel)
  obtain ⟨fs, -, hi⟩ := instrument_tree_of_isOk {} (by decide +kernel) hs (by decide +kernel)
  obtain ⟨ps, hps, hnodup, hread⟩ := outputs_of_tree sound hi
  obtain rfl := Except.ok.inj (hs.symm.trans hps)
  exact ⟨sound, _, .ofFiles fs, hi, hnodup.2 (by decide +kernel),
    hread (by decide +kernel) (by decide +kernel)⟩

/-- A file with types beside the one that it comes out as: the second result is written over the first. -/
theorem outputs_clash :
    let d : Disk :=
      { entries := [(["tree"], .dir), (["tree", "a.js"], .file "one();\n".toUTF8),
          (["tree", "a.ts"], .file "two();\n".toUTF8)] }
    d.Sound ∧ ∃ d' report, instrument {} d (.tree ⟨"tree"⟩ [] ⟨"out"⟩) = (d', .ok report) ∧
      report.files.map (fun f => (f.fileId, f.output)) =
        [("a.js", some "out/a.js"), ("a.ts", some "out/a.js")] ∧
      d'.readText ⟨"out/a.js"⟩ = .ok (
        "var __stepwiseRecord = globalThis.__stepwiseRecord || function() {};\n" ++
        "two();\n__stepwiseRecord(1, 0, {}, false, \"a.ts\");\n") := by
  intro d
  have hs : sources d ⟨"tree"⟩ [] ⟨"out"⟩ = .ok [⟨"a.js"⟩, ⟨"a.ts"⟩] :=
    sources_of_pairwise [⟨"a.js"⟩, ⟨"a.ts"⟩] (by decide +kernel) (by decide +kernel)
  have hfiles : (instrumentAll d ⟨"tree"⟩ ⟨"out"⟩ [⟨"a.js"⟩, ⟨"a.ts"⟩]).2.map
      (·.map fun f => (f.fileId, f.output)) =
        .ok [("a.js", some "out/a.js"), ("a.ts", some "out/a.js")] := by decide +kernel
  obtain ⟨fs, hfs, hi⟩ := instrument_tree_of_isOk {} (by decide +kernel) hs (by decide +kernel)
  rw [hfs] at hfiles
  exact ⟨by decide +kernel, _, .ofFiles fs, hi, Except.ok.inj hfiles, by decide +kernel⟩

end StepTrace.Sources
