import StepTrace.Proofs.Files.Overwrite
import StepTrace.Proofs.Recording.Persisted
import StepTrace.Proofs.Store.AppendOnly

/-!
What a store keeps of a step. The file of a step that was written tells the step again, whatever event it was made
of.
-/
namespace StepTrace.Store

open Recording

/-- A step that is kept is read from its file. -/
theorem readText_of_sink {root : Path} {d : Disk} {o : Offer} (kept : (sink root d o).2 = true) :
    (sink root d o).1.readText (stepFile root o) = .ok o.step.toJson.indentedText := by
  cases hw : write root d o with
  | mk d' answer =>
    cases answer with
    | error f => simp [sink, hw] at kept
    | ok p =>
      obtain ⟨rfl, -, hread, -⟩ := file_of_write hw
      have htext : String.fromUTF8? (content o.step) = some o.step.toJson.indentedText :=
        dif_pos (String.isValidUTF8 _)
      simpa [sink, hw] using Disk.readText_of_read hread htext

/-- If an act of a recorder writes its step, the step is read from its file. -/
theorem readText_of_written {root : Path} {r : Recorder Disk} {a : Act} {o : Offer}
    (ho : (r.ledger.apply r.options a.now a.stream a.op).2 = some o)
    (written : (r.step (sink root) a).written = r.written + 1) :
    (r.step (sink root) a).sink.readText (stepFile root o) = .ok o.step.toJson.indentedText := by
  have kept : (sink root r.sink o).2 = true := by
    have hcounts := (Recorder.step_counts (sink root) r a).1
    rw [written, ho] at hcounts
    simpa using hcounts
  rw [Recorder.step_sink, ho]
  exact readText_of_sink kept

/-- The file of a step that was written for a line reads back as the step that was offered, and every step comes
back from both of its layouts, as an object with its bindings in their order that says that it is a return only if
it is one. Steps are numbered with 64 bits, and floats have to come back from their texts. -/
theorem steps_come_back :
    (∀ (root : Path) (now : UInt64) (run : Run Disk) (text : String) (e : StreamEvent) (s : Sighting),
      eventOf? text = some e → e.event = .record s →
      let r := run.recorder
      let next := (run.line (sink root) now text).recorder
      ∃ o, (r.ledger.apply r.options now (e.stream.getD defaultStream) e.event.operation).2 = some o ∧
        (o.step.stepNumber < Nat.pow 2 64 → (Json.object o.step.vars).FloatsReread →
          next.written = r.written + 1 →
          ∃ kept, next.sink.readText (stepFile root o) = .ok kept ∧ Step.ofText? kept = some o.step)) ∧
    ∀ s : Step, s.stepNumber < Nat.pow 2 64 → (Json.object s.vars).IsProper →
      (Json.object s.vars).FloatsReread → s.toJson.depth ≤ Json.depthLimit →
      ∀ text ∈ [s.toJson.compactText, s.toJson.indentedText],
        Step.ofText? text = some s ∧
        ∃ members : Members, Json.ofText? Json.depthLimit text = some (.object members) ∧
          members.get? "vars" = some (.object s.vars) ∧
          members.get? "returnPosition" = if s.returnPosition then some (.bool true) else none := by
  constructor
  · intro root now run text e s he hs r next
    let a : Act := StreamEvent.act (now, e)
    have hnext : next = r.step (sink root) a := by
      have hline := Run.recorder_line (sink root) now run text
      rwa [he] at hline
    obtain ⟨o, ho, hvars⟩ := exists_offered hs r.options now r.ledger a.stream
    refine ⟨o, ho, fun hnumber hfloats hwritten => ?_⟩
    obtain ⟨hreadable, hdepth⟩ := isReadable_of_captured (ofText?_of_eventOf? he) hs hvars hnumber hfloats
    refine ⟨o.step.toJson.indentedText, ?_, ?_⟩
    · rw [hnext] at hwritten ⊢
      exact readText_of_written ho hwritten
    · exact Step.ofText?_of_rawOfText? (Json.rawOfText?_indentedText _ hreadable) hreadable hdepth
  · intro s hnumber hproper hfloats hdepth text htext
    have hreadable := Step.isReadable_toJson hnumber (Json.isReadable_iff.2 ⟨hproper, hfloats⟩)
    have htree : Json.Raw.ofText? text = some s.toJson.tree := by
      obtain rfl | htext := List.mem_cons.1 htext
      · exact Json.rawOfText?_compactText _ hreadable
      · rw [List.mem_singleton.1 htext]
        exact Json.rawOfText?_indentedText _ hreadable
    have hobject : Json.ofText? Json.depthLimit text = some (.object s.members) :=
      Json.ofText?_of_rawOfText? htree hreadable hdepth
    refine ⟨Step.ofText?_of_rawOfText? htree hreadable hdepth, s.members, hobject, ?_⟩
    cases hret : s.returnPosition <;> simp [Step.members, hret, Keyed.get?]

/-- A marker in an array, a float and a return; the file of the step, and its compact text. -/
theorem steps_come_back_marker :
    let root : Path := ⟨"store"⟩
    let run : Run Disk := { recorder := .fresh {} {} }
    let sent : Members :=
      [("b\n", .array [.object [("$stepwise", .text "undefined")]]), ("arguments", .null), ("a", .float 1.5)]
    let e : StreamEvent := ⟨none, .record ⟨3, 0, sent, true, none, some 7⟩⟩
    let o : Offer := ⟨⟨[noSuite], unknownTest⟩, 1, unknownFile, 3, 0,
      [("b\n", .array [.text "[undefined]"]), ("a", .float 1.5)], 7, noSuite, unknownTest, true⟩
    let next := (run.line (sink root) 0 e.toJson.compactText).recorder
    next.written = 1 ∧
      (∃ kept, next.sink.readText (stepFile root o) = .ok kept ∧ Step.ofText? kept = some o.step) ∧
      Step.ofText? o.step.toJson.compactText = some o.step := by
  intro root run sent e o next
  have hfloat : (Json.float 1.5).IsReadable := ⟨⟨false, [1], [5], none⟩, by decide +kernel, rfl⟩
  have hsent : (Json.object sent).IsReadable :=
    ⟨by decide, ⟨⟨by decide, trivial, trivial⟩, trivial⟩, trivial, hfloat, trivial⟩
  have hvars : (Json.object o.step.vars).IsReadable := ⟨by decide, ⟨trivial, trivial⟩, hfloat, trivial⟩
  obtain ⟨hproper, hfloats⟩ := Json.isReadable_iff.1 hvars
  have hline : eventOf? e.toJson.compactText = some e := by
    refine StreamEvent.eventOf?_compactText (StreamEvent.isReadable_toJson fun s hs => ?_) (by decide)
    cases hs
    exact hsent
  have hwritten : next.written = 1 := by
    have hnext : next = run.recorder.run (sink root) (actsAt 0 [e]) := by
      have hrun := Run.recorder_line (sink root) 0 run e.toJson.compactText
      rwa [hline] at hrun
    rw [hnext]
    decide +kernel
  obtain ⟨o', ho', hback⟩ := steps_come_back.1 root 0 run _ e _ hline rfl
  obtain rfl : o = o' := Option.some.inj ho'
  refine ⟨hwritten, hback (by decide) hfloats hwritten, ?_⟩
  exact (steps_come_back.2 o.step (by decide) hproper hfloats (by decide) _ List.mem_cons_self).1

end StepTrace.Store
