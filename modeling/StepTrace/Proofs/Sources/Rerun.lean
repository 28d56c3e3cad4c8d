import StepTrace.Proofs.Sources.Outputs

/-!
Instrumenting a directory again. As long as an output directory inside the root is recognized, what is in it
is left out; then a second run takes the same files, finds them as they were, and writes what is there
already. It is recognized if it is spelled as the root with names after it.
-/
namespace StepTrace.Sources

open StepTrace.Path

variable {d d' : Disk} {root out : Path} {patterns : List String}

/-- Where every output can be written at once, a run writes the results and reports them. -/
theorem instrumentAll_of_ready {ws : List (Path × Script.Traced)}
    (hready : ∀ w ∈ ws, Ready d (outputPath out w.1))
    (htraced : ∀ w ∈ ws, traced? d root w.1 = .ok w.2)
    (hspares : Spares d.cwd root out (ws.map Prod.fst)) :
    instrumentAll d root out (ws.map Prod.fst) =
      (d.puts (ws.map (writeOf d.cwd out)), .ok (ws.map (reportOf root out))) := by
  induction ws generalizing d with
  | nil => rfl
  | cons w ws ih =>
    obtain ⟨p, t⟩ := w
    obtain ⟨hp, hready⟩ := List.forall_mem_cons.1 hready
    obtain ⟨ht, htraced⟩ := List.forall_mem_cons.1 htraced
    obtain ⟨hfirst, hspares⟩ := List.pairwise_cons.1 hspares
    have hwrite := Disk.Overwrites.of_put hp.not_dir t.code.toUTF8
    refine instrumentAll_cons_eq_ok_iff.2 ⟨_, _, _,
      instrumentFile_eq_ok_iff.2 ⟨t, ht, rfl, deliver_of_ready hp _⟩,
      ih (fun v hv => (hready v hv).put hp.not_dir) (fun v hv => ?_) hspares, rfl⟩
    obtain ⟨text, htext, hi⟩ := traced?_eq_ok_iff.1 (htraced v hv)
    have hv' := hfirst v.1 (List.mem_map_of_mem (f := Prod.fst) hv)
    exact traced?_eq_ok_iff.2
      ⟨text, hwrite.readText_of_notMem (by simpa [Keyed.keys] using hv'.symm) htext, hi⟩

/-- After files were written in a recognized output directory the same files are taken. -/
theorem takes_of_overwrites (hrec : Recognizes d.cwd root patterns out) (sound : d.Sound)
    (sound' : d'.Sound) {ps : List Path} (h : Takes d root patterns out ps)
    {ws : Keyed Location ByteArray} (hover : d.Overwrites ws d')
    (hws : ∀ l ∈ ws.keys, out.location d.cwd <+: l) : Takes d' root patterns out ps := by
  obtain ⟨hordered, globs, hg, hmem⟩ := h
  have same : ∀ names, (∀ s ∈ names, IsName s) → isChosen globs names →
      isOutput root out (ofNames names) = false →
      (LeadsToFile d' root names ↔ LeadsToFile d root names) := by
    intro names hn hc ho
    have hnot : root.location d.cwd ++ names ∉ ws.keys := by
      intro hk
      have hskipped := hrec globs hg names hn hc (hws _ hk)
      simp [ho] at hskipped
    unfold LeadsToFile
    rw [hover.keepsDirs.cwd_eq]
    exact exists_congr fun bytes => hover.file_iff_of_notMem hnot
  refine ⟨hordered, globs, hg, fun p => (hmem p).trans (exists_congr fun names => ?_)⟩
  constructor
  · rintro ⟨rfl, hl, hc, ho⟩
    exact ⟨rfl, (same names (hl.isName sound) hc ho).2 hl, hc, ho⟩
  · rintro ⟨rfl, hl, hc, ho⟩
    exact ⟨rfl, (same names (hl.isName sound') hc ho).1 hl, hc, ho⟩

/-- Instrumenting a directory again takes the same files, reports the same, and changes nothing, as long as
the output directory is recognized. -/
theorem instrument_again {config : Config} {report : InstrumentReport} (sound : d.Sound)
    (hrec : Recognizes d.cwd root patterns out)
    (h : instrument config d (.tree root patterns out) = (d', .ok report)) :
    sources d' root patterns out = sources d root patterns out ∧
      instrument config d' (.tree root patterns out) = (d', .ok report) := by
  obtain ⟨hroot, ps, hs, hall, hreport⟩ := sources_of_instrument_tree h
  have htakes := (sources_eq_ok_iff sound hroot).1 hs
  have hnames := names_of_takes htakes
  have apart := output_ne_source hrec sound htakes
  obtain ⟨ws, rfl, hfs, hws⟩ :=
    delivers_of_instrumentAll sound hroot hnames (List.pairwise_of_forall_mem_list apart) hall
  have hcwd := hws.overwrites.keepsDirs.cwd_eq
  have hkeys : ∀ l ∈ Keyed.keys (ws.map (writeOf d.cwd out)), ∃ p ∈ ws.map Prod.fst,
      (outputPath out p).location d.cwd = l := by
    intro l hl
    simpa [Keyed.keys, writeOf] using hl
  have htakes' : Takes d' root patterns out (ws.map Prod.fst) := by
    refine takes_of_overwrites hrec sound hws.sound htakes hws.overwrites fun l hl => ?_
    obtain ⟨p, hp, rfl⟩ := hkeys l hl
    exact prefix_location_outputPath sound htakes p hp
  have hs' := (sources_eq_ok_iff hws.sound (hws.overwrites.keepsDirs.isDir hroot)).2 htakes'
  have htraced : ∀ w ∈ ws, traced? d' root w.1 = .ok w.2 := by
    intro w hw
    obtain ⟨text, htext, hi⟩ := traced?_eq_ok_iff.1 (hws.traced w hw)
    refine traced?_eq_ok_iff.2 ⟨text, hws.overwrites.readText_of_notMem (fun hl => ?_) htext, hi⟩
    obtain ⟨p, hp, hl⟩ := hkeys _ hl
    exact apart p hp w.1 (List.mem_map_of_mem (f := Prod.fst) hw) hl
  have hagain := instrumentAll_of_ready hws.ready htraced
    (List.pairwise_of_forall_mem_list (hcwd ▸ apart))
  have hsame : d'.puts (ws.map (writeOf d'.cwd out)) = d' := by
    rw [hcwd]
    exact Disk.puts_eq_self hws.sound.distinct fun l bytes hb => hws.overwrites.file_of_get? hb
  refine ⟨hs'.trans hs.symm, ?_⟩
  rw [instrument_tree_of_sources config (hws.overwrites.keepsDirs.isDir hroot) hs', hagain, hsame, hfs,
    hreport]
  rfl

/-- The output directory is spelled as the root is, with a name after it. -/
theorem instrument_again_here :
    let d : Disk :=
      { entries := [(["a.js"], .file "x();\n".toUTF8), (["b.ts"], .file "y();\n".toUTF8)] }
    let target : Target := .tree ⟨"."⟩ [] ⟨"./out"⟩
    d.Sound ∧ Recognizes d.cwd ⟨"."⟩ [] ⟨"./out"⟩ ∧
      ∃ d' report, instrument {} d target = (d', .ok report) ∧
        sources d' ⟨"."⟩ [] ⟨"./out"⟩ = .ok [⟨"a.js"⟩, ⟨"b.ts"⟩] ∧
        instrument {} d' target = (d', .ok report) := by
  intro d target
  have sound : d.Sound := by decide +kernel
  have hrec : Recognizes d.cwd ⟨"."⟩ [] ⟨"./out"⟩ :=
    recognizes_of_components ["out"] (by decide) (by decide +kernel) _ _
  have hs : sources d ⟨"."⟩ [] ⟨"./out"⟩ = .ok [⟨"a.js"⟩, ⟨"b.ts"⟩] :=
    sources_of_pairwise [⟨"a.js"⟩, ⟨"b.ts"⟩] (by decide +kernel) (by decide +kernel)
  obtain ⟨fs, -, hi⟩ := instrument_tree_of_isOk {} (by decide +kernel) hs (by decide +kernel)
  obtain ⟨hsame, hagain⟩ := instrument_again sound hrec hi
  exact ⟨sound, hrec, _, .ofFiles fs, hi, hsame.trans hs, hagain⟩

/-- The output directory is spelled without the dot that the root is: the second run takes the result of
the first. -/
theorem output_taken_again :
    let d : Disk := { entries := [(["a.js"], .file "x();\n".toUTF8)] }
    let target : Target := .tree ⟨"."⟩ [] ⟨"out"⟩
    d.Sound ∧ ∃ d' d'' report report', instrument {} d target = (d', .ok report) ∧
      instrument {} d' target = (d'', .ok report') ∧
      report.files.map (fun f => (f.fileId, f.output)) = [("a.js", some "out/a.js")] ∧
      report'.files.map (fun f => (f.fileId, f.output)) =
        [("a.js", some "out/a.js"), ("out/a.js", some "out/out/a.js")] := by
  intro d target
  have hs : sources d ⟨"."⟩ [] ⟨"out"⟩ = .ok [⟨"a.js"⟩] :=
    sources_of_pairwise [⟨"a.js"⟩] (by decide +kernel) (by decide +kernel)
  have hfiles : (instrumentAll d ⟨"."⟩ ⟨"out"⟩ [⟨"a.js"⟩]).2.map
      (·.map fun f => (f.fileId, f.output)) = .ok [("a.js", some "out/a.js")] := by decide +kernel
  obtain ⟨fs, hfs, hi⟩ := instrument_tree_of_isOk {} (by decide +kernel) hs (by decide +kernel)
  have hs' : sources (instrumentAll d ⟨"."⟩ ⟨"out"⟩ [⟨"a.js"⟩]).1 ⟨"."⟩ [] ⟨"out"⟩ =
      .ok [⟨"a.js"⟩, ⟨"out/a.js"⟩] :=
    sources_of_pairwise [⟨"a.js"⟩, ⟨"out/a.js"⟩] (by decide +kernel) (by decide +kernel)
  have hfiles' : (instrumentAll (instrumentAll d ⟨"."⟩ ⟨"out"⟩ [⟨"a.js"⟩]).1 ⟨"."⟩ ⟨"out"⟩
      [⟨"a.js"⟩, ⟨"out/a.js"⟩]).2.map (·.map fun f => (f.fileId, f.output)) =
        .ok [("a.js", some "out/a.js"), ("out/a.js", some "out/out/a.js")] := by decide +kernel
  obtain ⟨fs', hfs', hi'⟩ :=
    instrument_tree_of_isOk {} (by decide +kernel) hs' (by decide +kernel)
  rw [hfs] at hfiles
  rw [hfs'] at hfiles'
  exact ⟨by decide +kernel, _, _, .ofFiles fs, .ofFiles fs', hi, hi', Except.ok.inj hfiles,
    Except.ok.inj hfiles'⟩

end StepTrace.Sources
