import StepTrace.Proofs.Store.Confinement
import StepTrace.Proofs.Store.Replay

/-!
The shape of a store does not depend on how streams are mixed. Which step gets a file may depend on it, and so
may what the file holds; but which files are wanted at all is told by each stream alone, and by how many steps
there are outside all cases under each suite path.
-/
namespace StepTrace

namespace Recording

/-! ### The labels that a history hands out -/

/-- Each act is in the situation that its stream has come to. -/
theorem map_op_situations (h : List Act) : (situations h).map Situation.op = h.map Act.op := by
  induction h using List.reverseRecOn with
  | nil => rfl
  | append_singleton h a ih => rw [situations_concat, List.map_append, List.map_append, ih]; rfl

/-- A situation in a case hands out a label. -/
def Situation.Labels (options : Options) (c : Situation) (key : CaseKey) (n : Nat) : Prop :=
  c.op.isRecord ∧ (caseAfter? c.before).isSome ∧ key = keyAfter options c.before ∧
    n = recordsSinceStart c.before + 1

theorem mem_label_offerAfter {options : Options} {h : List Act} {a : Act} {key : CaseKey} {n : Nat} :
    (key, n) ∈ (offerAfter options h a).toList.map Offer.label ↔
      a.op.isRecord ∧ key = keyAfter options (pastOf h a.stream) ∧
        n = numberAfter options h a.stream := by
  cases hop : a.op <;> simp [offerAfter, hop, Offer.label, Operation.isRecord, Ledger.stepOf]

/-- The labels of a history are those that its situations in cases hand out, and under each suite path the
numbers from one up to that of its steps outside all cases. -/
theorem mem_labels_iff (options : Options) (h : List Act) (key : CaseKey) (n : Nat) :
    (key, n) ∈ (offersOf options h).map Offer.label ↔
      (∃ c ∈ situations h, c.Labels options key n) ∨
        key.test = unknownTest ∧ 1 ≤ n ∧ n ≤ idleRecords options h key.suitePath := by
  induction h using List.reverseRecOn with
  | nil =>
    have hnone : idleRecords options [] key.suitePath = 0 := rfl
    simp only [offersOf, situations, eachFrom, hnone]
    simp
    omega
  | append_singleton h a ih =>
    rw [offersOf_concat, List.map_append, List.mem_append, ih, mem_label_offerAfter, situations_concat,
      idleRecords_concat]
    have hsplit : ∀ (P : Situation → Prop) (s : Situation),
        (∃ c ∈ situations h ++ [s], P c) ↔ (∃ c ∈ situations h, P c) ∨ P s := by
      intro P s
      simp [or_and_right, exists_or]
    rw [hsplit]
    cases hc : caseAfter? (pastOf h a.stream) with
    | some c =>
      -- a step in a case: the situation hands out its label, and the count stays
      have hidle : idlePath? options (pastOf h a.stream) a.op ≠ some key.suitePath := by
        simp [idlePath?, hc]
      simp only [if_neg hidle, Nat.add_zero, Situation.Labels, numberAfter, hc, Option.isSome_some, if_true,
        true_and]
      exact or_right_comm
    | none =>
      -- a step outside all cases: the situation hands out nothing, and its suite path counts on
      have hkey := keyAfter_of_none options hc
      simp only [Situation.Labels, numberAfter, hc, Option.isSome_none, Bool.false_eq_true, if_false,
        false_and, and_false, or_false, hkey]
      rw [or_assoc]
      refine or_congr_right ?_
      obtain ⟨path, test⟩ := key
      by_cases hp : idlePath? options (pastOf h a.stream) a.op = some path
      · obtain ⟨hr, -, rfl⟩ := idlePath?_eq_some.1 hp
        simp only [hr, true_and, if_pos hp, CaseKey.mk.injEq]
        constructor
        · rintro (⟨rfl, h1, h2⟩ | ⟨rfl, rfl⟩)
          · exact ⟨rfl, h1, h2.trans (Nat.le_succ _)⟩
          · exact ⟨rfl, Nat.le_add_left _ _, Nat.le_refl _⟩
        · rintro ⟨rfl, h1, h2⟩
          rcases Nat.le_succ_iff.1 h2 with h2 | h2
          · exact Or.inl ⟨rfl, h1, h2⟩
          · exact Or.inr ⟨rfl, h2⟩
      · rw [if_neg hp, Nat.add_zero]
        refine or_iff_left ?_
        rintro ⟨hr, hk, -⟩
        cases hk
        exact hp (idlePath?_eq_some.2 ⟨hr, hc, rfl⟩)

section Same

variable {h k : List Act} (same : ∀ id, pastOf h id = pastOf k id)

include same

/-- Two mixtures of the same streams hand out the same labels. -/
theorem labels_congr (options : Options) :
    ∀ x, x ∈ (offersOf options h).map Offer.label ↔ x ∈ (offersOf options k).map Offer.label := by
  rintro ⟨key, n⟩
  rw [mem_labels_iff, mem_labels_iff, idleRecords_congr same]
  simp only [(situations_perm same).mem_iff]

/-- They offer equally many steps. -/
theorem length_offersOf_congr (options : Options) :
    (offersOf options h).length = (offersOf options k).length := by
  have records : ∀ l : List Act, (offersOf options l).length =
      ((situations l).map Situation.op).countP Operation.isRecord := by
    intro l
    rw [length_offersOf, map_op_situations, List.countP_map]
    rfl
  rw [records, records, ((situations_perm same).map _).countP_eq]

end Same
end Recording

namespace Store

open Recording

variable {root : Path} {d d' : Disk} {o : Offer} {os os' : List Offer}

/-! ### What writes leave on the way -/

/-- A directory that a write has made is on the way to the file of its step. -/
theorem dir_of_write {l : Location} (h : Disk.entry? (write root d o).1 l = some .dir) :
    d.entry? l = some .dir ∨ ∃ q ∈ (caseDir root o.case).ancestors, l = q.location d.cwd := by
  have hway : ∀ l, Disk.entry? (d.createDirAll (caseDir root o.case)).1 l = some .dir →
      d.entry? l = some .dir ∨ ∃ q ∈ (caseDir root o.case).ancestors, l = q.location d.cwd := by
    intro l hl
    obtain ⟨ls, hls, he⟩ := Disk.createDirs_eq d (caseDir root o.case).ancestors
    rw [Disk.createDirAll, he, Disk.entry?_adding, Option.or_eq_some_iff] at hl
    refine hl.imp_right fun hnew => ?_
    obtain ⟨l', hl', heq⟩ := List.mem_map.1 (Keyed.mem_of_get? hnew.2)
    cases heq
    exact hls l hl'
  rcases write_eq root d o with ⟨d', hw, hc⟩ | ⟨f, hw⟩
  · rw [hw] at h
    refine hway l ?_
    obtain ⟨-, hnone, -, rfl⟩ := hc
    rw [Disk.entry?_adding, Option.or_eq_some_iff] at h
    rcases h with h | ⟨-, h⟩
    · exact h
    · simp [Keyed.get?] at h
  · rw [hw] at h
    exact hway l h

theorem dir_of_writeAll {l : Location} (h : Disk.entry? (writeAll root d os) l = some .dir) :
    d.entry? l = some .dir ∨
      ∃ o ∈ os, ∃ q ∈ (caseDir root o.case).ancestors, l = q.location d.cwd := by
  induction os generalizing d with
  | nil => exact Or.inl h
  | cons o os ih =>
    rcases ih h with hd | ⟨o', ho', q, hq, hl⟩
    · exact (dir_of_write hd).imp_right fun hq => ⟨o, List.mem_cons_self, hq⟩
    · rw [(grows_write root d o).cwd_eq] at hl
      exact Or.inr ⟨o', List.mem_cons_of_mem _ ho', q, hq, hl⟩

/-! ### The files that writes make -/

/-- Where a step is written nothing was before, and its file is there from then on. -/
theorem isFile_of_written (ho : o ∈ written root d os) :
    d.entry? ((stepFile root o).location d.cwd) = none ∧
      (writeAll root d os).IsFile ((stepFile root o).location d.cwd) := by
  induction os generalizing d with
  | nil => cases ho
  | cons o' os ih =>
    have hgrows := grows_write root d o'
    cases hw : write root d o' with
    | mk d' answer =>
      rw [hw] at hgrows
      have hlater : writeAll root d (o' :: os) = writeAll root d' os := by simp [writeAll, hw]
      have hrest : o ∈ written root d' os → d.entry? ((stepFile root o).location d.cwd) = none ∧
          (writeAll root d (o' :: os)).IsFile ((stepFile root o).location d.cwd) := by
        intro hm
        obtain ⟨hnone, hfile⟩ := ih hm
        rw [hgrows.cwd_eq] at hnone hfile
        rw [hlater]
        refine ⟨?_, hfile⟩
        cases he : d.entry? ((stepFile root o).location d.cwd) with
        | none => rfl
        | some e => cases (hgrows.entry?_eq he).symm.trans hnone
      cases answer with
      | error f => exact hrest (by simpa [written, hw] using ho)
      | ok p =>
        simp only [written, hw, List.mem_cons] at ho
        rcases ho with rfl | ho
        · obtain ⟨rfl, hnone, -, hfile⟩ := file_of_write hw
          rw [hlater]
          exact ⟨hnone, _, (grows_writeAll root d' os).entry?_eq ((hfile _ _).2 (Or.inr ⟨rfl, rfl⟩))⟩
        · exact hrest ho

/-- No two steps that are written have the same file. -/
theorem nodup_written (root : Path) (d : Disk) (os : List Offer) :
    ((written root d os).map stepNames).Nodup := by
  induction os generalizing d with
  | nil => exact List.nodup_nil
  | cons o os ih =>
    have hgrows := grows_write root d o
    cases hw : write root d o with
    | mk d' answer =>
      rw [hw] at hgrows
      cases answer with
      | error f => simpa [written, hw] using ih d'
      | ok p =>
        simp only [written, hw, List.map_cons, List.nodup_cons]
        refine ⟨fun hm => ?_, ih d'⟩
        obtain ⟨o', ho', hn⟩ := List.mem_map.1 hm
        obtain ⟨rfl, -, -, hfile⟩ := file_of_write hw
        have hnone := (isFile_of_written ho').1
        rw [hgrows.cwd_eq, location_stepFile_eq, hn, ← location_stepFile_eq] at hnone
        cases hnone.symm.trans ((hfile _ _).2 (Or.inr ⟨rfl, rfl⟩))

/-- Of two lists of steps with the same labels, tried on the same disk: what is written of one has its file
written with the other, if something has the name of each file in the end. It is no directory, as it would
be on the way to a case. -/
theorem written_of_labels (labels : ∀ x ∈ os.map Offer.label, x ∈ os'.map Offer.label)
    (there : ∀ o ∈ os', ((writeAll root d os').lookup (stepFile root o)).isOk)
    (ho : o ∈ written root d os) : stepNames o ∈ (written root d os').map stepNames := by
  obtain ⟨o', ho', hlabel⟩ := List.mem_map.1
    (labels _ (List.mem_map_of_mem ((written_sublist root d os).subset ho)))
  obtain ⟨hnone, -⟩ := isFile_of_written ho
  have hthere := there o' ho'
  rw [stepFile_congr root hlabel] at hthere
  cases hl : (writeAll root d os').lookup (stepFile root o) with
  | error e => rw [hl] at hthere; cases hthere
  | ok e =>
    have he := (Disk.lookup_eq hl).2
    rw [(grows_writeAll root d os').cwd_eq] at he
    cases e with
    | dir =>
      rcases dir_of_writeAll he with hd | ⟨o'', -, q, hq, hl⟩
      · cases hd.symm.trans hnone
      · exact absurd hl.symm (not_on_way_of_written ho hq)
    | file bytes =>
      rcases file_of_writeAll he with hf | ⟨o'', ho'', hl, -⟩
      · cases hf.symm.trans hnone
      · rw [location_stepFile_eq, location_stepFile_eq] at hl
        rw [List.append_cancel_left hl]
        exact List.mem_map_of_mem ho''

/-- Then both make files in the same places, and equally many. -/
theorem shape_of_labels (labels : ∀ x, x ∈ os.map Offer.label ↔ x ∈ os'.map Offer.label)
    (there : ∀ o ∈ os, ((writeAll root d os).lookup (stepFile root o)).isOk)
    (there' : ∀ o ∈ os', ((writeAll root d os').lookup (stepFile root o)).isOk) :
    (∀ l, (writeAll root d os).IsFile l ↔ (writeAll root d os').IsFile l) ∧
      (written root d os).length = (written root d os').length := by
  have hto : ∀ o ∈ written root d os, stepNames o ∈ (written root d os').map stepNames :=
    fun _ => written_of_labels (fun x => (labels x).1) there'
  have hback : ∀ o ∈ written root d os', stepNames o ∈ (written root d os).map stepNames :=
    fun _ => written_of_labels (fun x => (labels x).2) there
  have files : ∀ {os os' : List Offer},
      (∀ o ∈ written root d os, stepNames o ∈ (written root d os').map stepNames) →
      ∀ l, (writeAll root d os).IsFile l → (writeAll root d os').IsFile l := by
    rintro os os' hnames l ⟨bytes, hf⟩
    rcases file_of_writeAll hf with hf | ⟨o, ho, rfl, -⟩
    · exact ⟨bytes, (grows_writeAll root d os').entry?_eq hf⟩
    · obtain ⟨o', ho', hn⟩ := List.mem_map.1 (hnames o ho)
      rw [location_stepFile_eq, ← hn, ← location_stepFile_eq]
      exact (isFile_of_written ho').2
  refine ⟨fun l => ⟨files hto l, files hback l⟩, ?_⟩
  have hlength := length_eq_of_nodup (nodup_written root d os) (nodup_written root d os') fun names =>
    ⟨fun hm => by obtain ⟨o, ho, rfl⟩ := List.mem_map.1 hm; exact hto o ho,
      fun hm => by obtain ⟨o, ho, rfl⟩ := List.mem_map.1 hm; exact hback o ho⟩
  simpa using hlength

/-! ### Two mixtures of the same streams -/

/-- Two mixtures of the same streams, on the same disk: there are files in the same places in the end, and
equally many steps were written and dropped, if steps are refused only because something has the names of
their files. -/
theorem shape_of_acts {options : Options} {h k : List Act} (same : ∀ id, pastOf h id = pastOf k id)
    (refused : Throughout (RefusedOnlyIf root options d fun _ o f =>
      f = .store (stepFile root o).text existsMessage) h)
    (refused' : Throughout (RefusedOnlyIf root options d fun _ o f =>
      f = .store (stepFile root o).text existsMessage) k) :
    let r := (Recorder.fresh options d).run (sink root) h
    let r' := (Recorder.fresh options d).run (sink root) k
    (∀ l, r.sink.IsFile l ↔ r'.sink.IsFile l) ∧ r.written = r'.written ∧ r.dropped = r'.dropped := by
  intro r r'
  obtain ⟨hsink, hwritten⟩ := written_run root options d h
  obtain ⟨hsink', hwritten'⟩ := written_run root options d k
  have there := lookup_of_run refused
  have there' := lookup_of_run refused'
  rw [after, hsink] at there
  rw [after, hsink'] at there'
  obtain ⟨hfiles, hlength⟩ := shape_of_labels (labels_congr same options) there there'
  have hsame : r.written = r'.written := by rw [hwritten, hwritten', hlength]
  have hcount := Recorder.written_add_dropped_run (sink root) options d h
  have hcount' := Recorder.written_add_dropped_run (sink root) options d k
  rw [length_offersOf_congr same options, ← hcount'] at hcount
  refine ⟨?_, hsame, ?_⟩
  · simpa only [r, r', hsink, hsink'] using hfiles
  · change r.written + r.dropped = r'.written + r'.dropped at hcount
    omega

/-- However the events of several streams are mixed, and whatever the clock shows at each: on the same disk
there are files in the same places in the end, and the tallies have equally many steps written and dropped,
if steps are refused only because something has the names of their files. -/
theorem shape_of_interleaving (root : Path) (options : Options) (d : Disk)
    (es₁ es₂ : List (UInt64 × StreamEvent)) (same : ∀ id, eventsOf es₁ id = eventsOf es₂ id)
    (refused₁ : Throughout (RefusedOnlyIf root options d fun _ o f =>
      f = .store (stepFile root o).text existsMessage) (es₁.map StreamEvent.act))
    (refused₂ : Throughout (RefusedOnlyIf root options d fun _ o f =>
      f = .store (stepFile root o).text existsMessage) (es₂.map StreamEvent.act)) :
    let r := Recorder.fresh options d
    let run₁ := Run.feed (sink root) { recorder := r } es₁
    let run₂ := Run.feed (sink root) { recorder := r } es₂
    (∀ l, run₁.recorder.sink.IsFile l ↔ run₂.recorder.sink.IsFile l) ∧
      (run₁.tally r).stepsWritten = (run₂.tally r).stepsWritten ∧
      (run₁.tally r).stepsDropped = (run₂.tally r).stepsDropped := by
  intro r run₁ run₂
  have past : ∀ id, pastOf (es₁.map StreamEvent.act) id = pastOf (es₂.map StreamEvent.act) id := by
    intro id
    rw [pastOf_map_act, pastOf_map_act, same]
  obtain ⟨hfiles, hwritten, hdropped⟩ := shape_of_acts past refused₁ refused₂
  simp only [run₁, run₂, Run.tally, Run.recorder_feed, r] at *
  exact ⟨hfiles, by rw [hwritten], by rw [hdropped]⟩

/-- Two streams record in cases whose names become the same, one of them twice, and outside all cases under
the same suite. One after the other the first of them writes the steps of the case, the other way round
the second; untimed steps get other times. -/
theorem shape_of_interleaving_shared :
    let sighting : Sighting :=
      { line := 1, column := 0, vars := [], ret := false, file := none, ts := none }
    let a (e : Event) : StreamEvent := ⟨some "a", e⟩
    let b (e : Event) : StreamEvent := ⟨some "b", e⟩
    let ofA := [a (.caseStart "t x" (some ["S"])), a (.record sighting), a .caseEnd,
      a (.record sighting), a (.caseStart "t x" (some ["S"])), a (.record sighting)]
    let ofB := [b (.caseStart "t_x" (some ["S"])), b (.record sighting), b (.record sighting),
      b .caseEnd, b (.record sighting)]
    let es₁ := (ofA ++ ofB).map fun e => ((1 : UInt64), e)
    let es₂ := (ofB ++ ofA).map fun e => ((2 : UInt64), e)
    let root : Path := ⟨"store"⟩
    let refused := Throughout (RefusedOnlyIf root {} ({} : Disk) fun _ o f =>
      f = .store (stepFile root o).text existsMessage)
    let r := Recorder.fresh {} ({} : Disk)
    let run₁ := Run.feed (sink root) { recorder := r } es₁
    let run₂ := Run.feed (sink root) { recorder := r } es₂
    (∀ id, eventsOf es₁ id = eventsOf es₂ id) ∧ refused (es₁.map StreamEvent.act) ∧
      refused (es₂.map StreamEvent.act) ∧
      (∀ l, run₁.recorder.sink.IsFile l ↔ run₂.recorder.sink.IsFile l) ∧
      (run₁.tally r).stepsWritten = 4 ∧ (run₂.tally r).stepsWritten = 4 ∧
      (run₁.tally r).stepsDropped = 2 ∧ (run₂.tally r).stepsDropped = 2 := by
  intro sighting a b ofA ofB es₁ es₂ root refused r run₁ run₂
  have same : ∀ id, eventsOf es₁ id = eventsOf es₂ id := by
    intro id
    by_cases ha : "a" = id
    · subst ha
      rfl
    · by_cases hb : "b" = id
      · subst hb
        rfl
      · simp [eventsOf, es₁, es₂, ofA, ofB, a, b, ha, hb]
  have refused₁ : refused (es₁.map StreamEvent.act) := by decide +kernel
  have refused₂ : refused (es₂.map StreamEvent.act) := by decide +kernel
  have written : (run₁.tally r).stepsWritten = 4 := by decide +kernel
  have dropped : (run₁.tally r).stepsDropped = 2 := by decide +kernel
  obtain ⟨hfiles, hw, hd⟩ := shape_of_interleaving root {} {} es₁ es₂ same refused₁ refused₂
  exact ⟨same, refused₁, refused₂, hfiles, written, hw ▸ written, dropped, hd ▸ dropped⟩

end Store
end StepTrace
