import StepTrace.Proofs.Recording.History

/-!
Steps that belong together are numbered upwards: those of one activation of a case, from its start to
the next start, end or reset in its stream, and those outside all cases under one suite path, whatever
streams they come from.
-/
namespace StepTrace.Recording

/-- In a stretch of a history a stream neither turns to another case nor numbers anew. -/
def Uninterrupted (stream : String) (between : List Act) : Prop :=
  ∀ c ∈ between, c.stream = stream → c.op.turnsCase = false ∧ c.op.restarts = false

/-- Two acts with a stretch of others between them belong to one activation of a case, or both to no
case and to the same suite path. -/
def Together (options : Options) (past : List Act) (a : Act) (between : List Act) (b : Act) : Prop :=
  let ops := pastOf past a.stream
  let later := pastOf (past ++ a :: between) b.stream
  a.stream = b.stream ∧ (caseAfter? ops).isSome ∧ Uninterrupted a.stream between ∨
    caseAfter? ops = none ∧ caseAfter? later = none ∧ livePath options ops = livePath options later

instance (stream : String) (between : List Act) : Decidable (Uninterrupted stream between) :=
  inferInstanceAs (Decidable (∀ _ ∈ _, _))

instance (options : Options) (past : List Act) (a : Act) (between : List Act) (b : Act) :
    Decidable (Together options past a between b) :=
  inferInstanceAs (Decidable (_ ∨ _))

/-! ### Longer histories -/

theorem pastOf_append (h k : List Act) (stream : String) :
    pastOf (h ++ k) stream = pastOf h stream ++ pastOf k stream := by
  simp [pastOf]

theorem caseAfter?_append {ops more : List Operation} (h : ∀ op ∈ more, op.turnsCase = false) :
    caseAfter? (ops ++ more) = caseAfter? ops := by
  have hnone : more.reverse.find? Operation.turnsCase = none := by
    simpa [List.find?_eq_none] using h
  simp [caseAfter?, List.find?_append, hnone]

theorem recordsSinceStart_append {ops more : List Operation} (h : ∀ op ∈ more, op.restarts = false) :
    recordsSinceStart (ops ++ more) = recordsSinceStart ops + more.countP Operation.isRecord := by
  have hall : ∀ op ∈ more.reverse, (!op.restarts) = true := by simpa using h
  rw [recordsSinceStart, List.reverse_append, List.takeWhile_append_of_pos hall, List.countP_append,
    List.countP_reverse, recordsSinceStart, Nat.add_comm]

theorem idleRecords_le_append (options : Options) (h k : List Act) (path : List String) :
    idleRecords options h path ≤ idleRecords options (h ++ k) path := by
  simp [idleRecords, eachFrom_append]

/-! ### Numbers -/

/-- Of two steps that belong together the later one has the larger number. -/
theorem numberAfter_lt_of_together {options : Options} {past between : List Act} {a b : Act}
    (ha : a.op.isRecord) (h : Together options past a between b) :
    numberAfter options past a.stream < numberAfter options (past ++ a :: between) b.stream := by
  have hop : a.op.turnsCase = false ∧ a.op.restarts = false := by
    cases hr : a.op <;> simp_all [Operation.isRecord, Operation.turnsCase, Operation.restarts]
  rcases h with ⟨hs, hc, hu⟩ | ⟨hc, hlater, hpath⟩
  · rw [← hs]
    have hpast : pastOf (past ++ a :: between) a.stream =
        pastOf past a.stream ++ a.op :: pastOf between a.stream := by
      rw [pastOf_append]
      simp [pastOf]
    have hquiet : ∀ op ∈ a.op :: pastOf between a.stream,
        op.turnsCase = false ∧ op.restarts = false := by
      refine List.forall_mem_cons.2 ⟨hop, fun op hm => ?_⟩
      obtain ⟨c, hcm, rfl⟩ := List.mem_map.1 hm
      obtain ⟨hcb, hcs⟩ := List.mem_filter.1 hcm
      exact hu c hcb (by simpa using hcs)
    have hcase := @caseAfter?_append (pastOf past a.stream) _ fun op hm => (hquiet op hm).1
    have hrecords := @recordsSinceStart_append (pastOf past a.stream) _ fun op hm =>
      (hquiet op hm).2
    simp only [numberAfter, hpast, hcase, hc, hrecords, List.countP_cons, ha, if_true]
    omega
  · have hidle : idlePath? options (pastOf past a.stream) a.op =
        some (livePath options (pastOf past a.stream)) := idlePath?_eq_some.2 ⟨ha, hc, rfl⟩
    have hle := idleRecords_le_append options (past ++ [a]) between
      (livePath options (pastOf past a.stream))
    rw [idleRecords_concat, if_pos hidle, List.append_assoc, List.singleton_append] at hle
    simp only [numberAfter, hc, hlater, Option.isSome_none, Bool.false_eq_true, if_false, ← hpath]
    omega

end StepTrace.Recording
