import Mathlib.Algebra.GroupWithZero.Nat
import StepTrace.Proofs.Script.Calls
import StepTrace.Proofs.Sources.Outputs

/-!
How files are told apart. A file is called by its way from the root, and this name stands in each call that
is put into it. Calls that a file makes itself keep what they name.
-/
namespace StepTrace

namespace Script

/-- The program that a text becomes before probes are put in: free of types and in normal form. -/
def Program.ofSource? (dialect : Dialect) (text : String) : Option Program :=
  match Program.ofText dialect (withoutByteOrderMark text) with
  | .ok p => some (if dialect.isTyped then p.withoutTypes else p).normal
  | .error _ => none

/-- What the probes of a file with this text are made from. -/
def tracerOf (file text : String) : Tracer := ⟨file, Position.ofOffset (withoutByteOrderMark text)⟩

theorem instrument_eq_ok_iff {dialect : Dialect} {file text : String} {t : Traced} :
    instrument dialect file text = .ok t ↔ ∃ own, Program.ofSource? dialect text = some own ∧
      t = ⟨(own.instrument (tracerOf file text)).1.text, (own.instrument (tracerOf file text)).2⟩ := by
  cases hread : Program.ofText dialect (withoutByteOrderMark text) with
  | error f => simp [instrument, Program.ofSource?, hread]
  | ok p =>
    simp only [instrument, Program.ofSource?, hread, Except.ok.injEq, Option.some.injEq, exists_eq_left']
    exact eq_comm

end Script

namespace Path

theorem componentsBefore_append_left (cs ds es : List Component) :
    componentsBefore (cs ++ ds) (cs ++ es) = componentsBefore ds es := by
  induction cs with
  | nil => rfl
  | cons c cs ih => simp [componentsBefore, ih]

theorem slashed_ofNames {names : List String} (h : ∀ s ∈ names, IsName s) :
    (ofNames names).slashed = (ofNames names).text := by
  rw [slashed, (components_ofNames h).2, List.map_map]
  exact congrArg ("/".intercalate ·) (List.map_id names)

end Path

namespace Sources

open StepTrace.Path

variable {d d' : Disk} {root out : Path} {patterns : List String}

/-- The way from the root to a file, by which it is called. -/
def InstrumentedFile.path (f : InstrumentedFile) : Path := ⟨f.fileId⟩

/-- Some of the files are instrumented, and then the others. -/
theorem instrumentAll_append_eq_ok_iff {ps qs : List Path} {fs : List InstrumentedFile} :
    instrumentAll d root out (ps ++ qs) = (d', .ok fs) ↔ ∃ e before after,
      instrumentAll d root out ps = (e, .ok before) ∧
        instrumentAll e root out qs = (d', .ok after) ∧ fs = before ++ after := by
  induction ps generalizing d fs with
  | nil =>
    constructor
    · intro h
      exact ⟨d, [], fs, rfl, h, rfl⟩
    · rintro ⟨e, before, after, hp, hq, rfl⟩
      cases hp
      exact hq
  | cons p ps ih =>
    rw [List.cons_append, instrumentAll_cons_eq_ok_iff]
    constructor
    · rintro ⟨e, f, rest, hf, hrest, rfl⟩
      obtain ⟨e', before, after, hp, hq, rfl⟩ := ih.1 hrest
      have hfirst := instrumentAll_cons_eq_ok_iff.2 ⟨e, f, before, hf, hp, rfl⟩
      exact ⟨e', f :: before, after, hfirst, hq, rfl⟩
    · rintro ⟨e', before, after, hp, hq, rfl⟩
      obtain ⟨e, f, rest, hf, hrest, rfl⟩ := instrumentAll_cons_eq_ok_iff.1 hp
      exact ⟨e, f, rest ++ after, hf, ih.2 ⟨e', rest, after, hrest, hq, rfl⟩, rfl⟩

theorem fileIds_of_instrumentAll {ps : List Path} {fs : List InstrumentedFile}
    (h : instrumentAll d root out ps = (d', .ok fs)) : fs.map (·.fileId) = ps.map fileId := by
  induction ps generalizing d fs with
  | nil =>
    cases h
    rfl
  | cons p ps ih =>
    obtain ⟨e, f, rest, hf, hrest, rfl⟩ := instrumentAll_cons_eq_ok_iff.1 h
    obtain ⟨t, -, rfl, -⟩ := instrumentFile_eq_ok_iff.1 hf
    simp [ih hrest, reportOf]

/-- A file is called by its names. -/
theorem fileId_of_takes (sound : d.Sound) {ps : List Path} (h : Takes d root patterns out ps) :
    ∀ p ∈ ps, p.lead = [] ∧ fileId p = p.text := by
  intro p hp
  obtain ⟨names, rfl, hl⟩ := names_of_takes h p hp
  have hn := hl.isName sound
  exact ⟨(components_ofNames hn).1, slashed_ofNames hn⟩

/-- The files of a report are those that are taken, under their ways from the root. -/
theorem paths_of_instrumentAll {ps : List Path} {fs : List InstrumentedFile}
    (hids : ∀ p ∈ ps, fileId p = p.text) (h : instrumentAll d root out ps = (d', .ok fs)) :
    fs.map (·.path) = ps := by
  have hpath : InstrumentedFile.path = Path.mk ∘ InstrumentedFile.fileId := rfl
  rw [hpath, ← List.map_map, fileIds_of_instrumentAll h, List.map_map]
  exact (List.map_congr_left fun p hp => congrArg Path.mk (hids p hp)).trans (List.map_id ps)

/-- What was made of a file: its program was read on one disk, and with its probes it stands on another. -/
structure Traces (root : Path) (d d' : Disk) (f : InstrumentedFile) (own traced : Script.Program) :
    Prop where
  source : f.source = (root.join f.path).text
  read : ∃ text, d.readText ⟨f.source⟩ = .ok text ∧
    Script.Program.ofSource? (dialectOf ⟨f.source⟩) text = some own ∧
    own.instrument (Script.tracerOf f.fileId text) = (traced, f.probes)
  written : ∃ p, f.output = some p ∧ d'.read ⟨p⟩ = .ok traced.text.toUTF8

theorem traces_of_instrumentFile {p : Path} {f : InstrumentedFile} (hid : fileId p = p.text)
    (h : instrumentFile d (root.join p) (fileId p) (some (outputPath out p)) = (d', .ok f)) :
    ∃ own traced, Traces root d d' f own traced := by
  obtain ⟨t, ht, rfl, hd⟩ := instrumentFile_eq_ok_iff.1 h
  obtain ⟨text, htext, hi⟩ := traced?_eq_ok_iff.1 ht
  obtain ⟨own, hown, rfl⟩ := Script.instrument_eq_ok_iff.1 hi
  have hsource : (root.join p).text = (root.join ⟨fileId p⟩).text :=
    congrArg (fun s => (root.join ⟨s⟩).text) hid.symm
  exact ⟨own, _, hsource, ⟨text, htext, hown, rfl⟩, _, rfl, read_of_deliver hd⟩

/-- The calls in a traced file name it once for each probe, beside what the file's own calls name. -/
theorem Traces.calledFiles {f : InstrumentedFile} {own traced : Script.Program}
    (h : Traces root d d' f own traced) :
    traced.calls.map Script.Expr.calledFile? =
      own.calls.map Script.Expr.calledFile? + Multiset.replicate f.probes.length (some f.fileId) := by
  obtain ⟨text, -, -, ht⟩ := h.read
  have hcalls := own.calledFiles_instrument (Script.tracerOf f.fileId text)
  rw [ht] at hcalls
  exact hcalls

/-- If a program has no calls of its own, all its calls name its file when it is traced. -/
theorem Traces.calledFile {f : InstrumentedFile} {own traced : Script.Program}
    (h : Traces root d d' f own traced) (hnone : own.calls = 0) :
    ∀ c ∈ traced.calls, c.calledFile? = some f.fileId := by
  intro c hc
  have hcalls := h.calledFiles
  rw [hnone, Multiset.map_zero, zero_add] at hcalls
  exact Multiset.eq_of_mem_replicate (hcalls ▸ Multiset.mem_map_of_mem _ hc)

/-- When the turn of a file comes, those before it are instrumented already. -/
theorem traces_of_instrumentAll {fs : List InstrumentedFile}
    (hids : ∀ f ∈ fs, fileId f.path = f.path.text)
    (h : instrumentAll d root out (fs.map (·.path)) = (d', .ok fs)) (before : List InstrumentedFile)
    (f : InstrumentedFile) (after : List InstrumentedFile) (hsplit : fs = before ++ f :: after) :
    ∃ e e' own traced, instrumentAll d root out (before.map (·.path)) = (e, .ok before) ∧
      instrumentAll e root out [f.path] = (e', .ok [f]) ∧ Traces root e e' f own traced := by
  subst hsplit
  rw [List.map_append] at h
  obtain ⟨e, gs, rest, hbefore, hrest, heq⟩ := instrumentAll_append_eq_ok_iff.1 h
  have hlength : before.length = gs.length := by
    simpa using (congrArg List.length (fileIds_of_instrumentAll hbefore)).symm
  obtain ⟨rfl, rfl⟩ := List.append_inj heq hlength
  obtain ⟨e', g, rest, hg, -, hcons⟩ := instrumentAll_cons_eq_ok_iff.1 hrest
  obtain ⟨rfl, rfl⟩ := List.cons.inj hcons
  obtain ⟨own, traced, htraces⟩ := traces_of_instrumentFile (hids f (by simp)) hg
  exact ⟨e, e', own, traced, hbefore, instrumentAll_cons_eq_ok_iff.2 ⟨e', f, [], hg, rfl, rfl⟩, htraces⟩

/-- Instrumenting a directory reports files in the strict order of their ways from the root, by which they
are called, so that each name is there once and tells the source. When the turn of a file comes, its program
is read, and each call that is put into it names the file; the calls of the program itself name what they
did before. If it has none, then all calls name the file. The probes are counted over all files. -/
theorem identity_of_tree {config : Config} {report : InstrumentReport} (sound : d.Sound)
    (h : instrument config d (.tree root patterns out) = (d', .ok report)) :
    sources d root patterns out = .ok (report.files.map (·.path)) ∧
      (report.files.Pairwise fun f g => componentsBefore f.path.components g.path.components ∧
        componentsBefore (Path.mk f.source).components (Path.mk g.source).components) ∧
      (report.files.map (·.fileId)).Nodup ∧
      (∀ before f after, report.files = before ++ f :: after → ∃ e e' own traced,
        instrumentAll d root out (before.map (·.path)) = (e, .ok before) ∧
          instrumentAll e root out [f.path] = (e', .ok [f]) ∧ Traces root e e' f own traced ∧
          traced.calls.map Script.Expr.calledFile? =
            own.calls.map Script.Expr.calledFile? +
              Multiset.replicate f.probes.length (some f.fileId) ∧
          (own.calls = 0 → ∀ c ∈ traced.calls, c.calledFile? = some f.fileId)) ∧
      report.totalProbes = (report.files.map (·.probes.length)).sum := by
  obtain ⟨hroot, ps, hs, hall, hreport⟩ := sources_of_instrument_tree h
  have htakes := (sources_eq_ok_iff sound hroot).1 hs
  have hids := fileId_of_takes sound htakes
  obtain rfl := paths_of_instrumentAll (fun p hp => (hids p hp).2) hall
  have hpath : ∀ f ∈ report.files, f.path.lead = [] ∧ fileId f.path = f.path.text :=
    fun f hf => hids _ (List.mem_map_of_mem hf)
  have hturn := traces_of_instrumentAll (fun f hf => (hpath f hf).2) hall
  have hsource : ∀ f ∈ report.files,
      (Path.mk f.source).components = root.components ++ f.path.components := by
    intro f hf
    obtain ⟨before, after, hfiles⟩ := List.append_of_mem hf
    obtain ⟨e, e', own, traced, -, -, htraces⟩ := hturn before f after hfiles
    rw [htraces.source]
    exact components_join_of_lead root (hpath f hf).1
  refine ⟨hs, ?_, ?_, ?_, ?_⟩
  · refine (List.pairwise_map.1 htakes.ordered).imp_of_mem fun hf hg hfg => ⟨hfg, ?_⟩
    rwa [hsource _ hf, hsource _ hg, componentsBefore_append_left]
  · refine List.Nodup.of_map Path.mk ?_
    rw [List.map_map]
    exact htakes.nodup
  · intro before f after hfiles
    obtain ⟨e, e', own, traced, hbefore, hf, htraces⟩ := hturn before f after hfiles
    exact ⟨e, e', own, traced, hbefore, hf, htraces, htraces.calledFiles, htraces.calledFile⟩
  · rw [hreport, InstrumentReport.ofFiles, List.sum_eq_foldr, List.foldr_map]

/-- Two files of one name in different directories. -/
theorem identity_of_tree_namesakes :
    let d : Disk :=
      { entries := [(["tree"], .dir), (["tree", "a.js"], .file "one();\n".toUTF8),
          (["tree", "sub"], .dir), (["tree", "sub", "a.js"], .file "two();\nthree();\n".toUTF8)] }
    d.Sound ∧ ∃ d' report, instrument {} d (.tree ⟨"tree"⟩ [] ⟨"out"⟩) = (d', .ok report) ∧
      report.files.map (·.fileId) = ["a.js", "sub/a.js"] ∧ report.totalProbes = 3 ∧
      ∀ f ∈ report.files, ∃ e e' own traced, Traces ⟨"tree"⟩ e e' f own traced ∧
        traced.calls.map Script.Expr.calledFile? =
          own.calls.map Script.Expr.calledFile? +
            Multiset.replicate f.probes.length (some f.fileId) := by
  intro d
  have sound : d.Sound := by decide +kernel
  have hs : sources d ⟨"tree"⟩ [] ⟨"out"⟩ = .ok [⟨"a.js"⟩, ⟨"sub/a.js"⟩] :=
    sources_of_pairwise [⟨"a.js"⟩, ⟨"sub/a.js"⟩] (by decide +kernel) (by decide +kernel)
  have hcounts : (instrumentAll d ⟨"tree"⟩ ⟨"out"⟩ [⟨"a.js"⟩, ⟨"sub/a.js"⟩]).2.map
      (·.map (·.probes.length)) = .ok [1, 2] := by decide +kernel
  obtain ⟨fs, hfs, hi⟩ := instrument_tree_of_isOk {} (by decide +kernel) hs (by decide +kernel)
  rw [hfs] at hcounts
  obtain ⟨hfiles, -, -, hturn, htotal⟩ := identity_of_tree sound hi
  have hids : fs.map (·.fileId) = ["a.js", "sub/a.js"] := by
    have hpaths := congrArg (List.map Path.text) (Except.ok.inj (hfiles.symm.trans hs))
    rwa [List.map_map] at hpaths
  refine ⟨sound, _, .ofFiles fs, hi, hids, ?_, fun f hf => ?_⟩
  · rw [htotal]
    exact congrArg List.sum (Except.ok.inj hcounts)
  · obtain ⟨before, after, hsplit⟩ := List.append_of_mem hf
    obtain ⟨e, e', own, traced, -, -, htraces, hcalls, -⟩ := hturn before f after hsplit
    exact ⟨e, e', own, traced, htraces, hcalls⟩

/-- A file that calls the recording function itself, in the name of another file. -/
theorem call_of_another_file :
    let text := "__stepwiseRecord(1, 0, {}, false, \"b.js\");\n"
    let d : Disk := { entries := [(["tree"], .dir), (["tree", "a.js"], .file text.toUTF8)] }
    d.Sound ∧ ∃ d' f own traced,
      instrument {} d (.tree ⟨"tree"⟩ [] ⟨"out"⟩) = (d', .ok (.ofFiles [f])) ∧
        Traces ⟨"tree"⟩ d d' f own traced ∧ f.fileId = "a.js" ∧
        traced.calls.map Script.Expr.calledFile? = {some "b.js", some "a.js"} ∧
        ¬ ∀ c ∈ traced.calls, c.calledFile? = some f.fileId := by
  intro text d
  have sound : d.Sound := by decide +kernel
  have hs : sources d ⟨"tree"⟩ [] ⟨"out"⟩ = .ok [⟨"a.js"⟩] :=
    sources_of_pairwise [⟨"a.js"⟩] (by decide +kernel) (by decide +kernel)
  have hreport : (instrumentAll d ⟨"tree"⟩ ⟨"out"⟩ [⟨"a.js"⟩]).2.map
      (·.map fun f => (f.fileId, f.source, f.probes.length)) = .ok [("a.js", "tree/a.js", 1)] := by
    decide +kernel
  have hown : (Script.Program.ofSource? (dialectOf ⟨"tree/a.js"⟩) text).map
      (·.calls.map Script.Expr.calledFile?) = some {some "b.js"} := by decide +kernel
  have htext : d.readText ⟨"tree/a.js"⟩ = .ok text := by decide +kernel
  obtain ⟨fs, hfs, hi⟩ := instrument_tree_of_isOk {} (by decide +kernel) hs (by decide +kernel)
  obtain ⟨d', f, rest, hf, hrest, rfl⟩ := instrumentAll_cons_eq_ok_iff.1 (Prod.ext rfl hfs)
  cases hrest
  obtain ⟨own, traced, htraces⟩ := traces_of_instrumentFile (by decide +kernel) hf
  obtain ⟨hid, hsource, hprobes⟩ : f.fileId = "a.js" ∧ f.source = "tree/a.js" ∧ f.probes.length = 1 := by
    simpa [hfs, Except.map] using hreport
  obtain ⟨text', htext', hown', -⟩ := htraces.read
  rw [hsource] at htext' hown'
  obtain rfl := Except.ok.inj (htext.symm.trans htext')
  rw [hown', Option.map_some, Option.some.injEq] at hown
  have hcalls : traced.calls.map Script.Expr.calledFile? = {some "b.js", some "a.js"} := by
    rw [htraces.calledFiles, hown, hprobes, hid]
    rfl
  refine ⟨sound, _, f, own, traced, hi, htraces, hid, hcalls, fun hall => ?_⟩
  have hother : some "b.js" ∈ traced.calls.map Script.Expr.calledFile? := by simp [hcalls]
  obtain ⟨c, hc, hfile⟩ := Multiset.mem_map.1 hother
  simp [hall c hc, hid] at hfile

end Sources

end StepTrace
