import StepTrace.Names

/-!
Names that come one after the other to names that are known already. The name of all arguments never counts,
and a name counts only once.
-/
namespace StepTrace

/-- The names that are not known yet, each where it comes first, without that of all arguments. -/
def newNames (known names : List String) : List String :=
  (names.filter fun x => x ≠ argumentsName ∧ x ∉ known).eraseDups

theorem mem_newNames {known names : List String} {x : String} :
    x ∈ newNames known names ↔ x ∈ names ∧ x ≠ argumentsName ∧ x ∉ known := by
  simp [newNames, List.mem_eraseDups]

/-- A name that counts is known from then on. -/
theorem newNames_cons (known : List String) (x : String) (r : List String) :
    newNames known (x :: r) =
      if x = argumentsName ∨ x ∈ known then newNames known r else x :: newNames (known ++ [x]) r := by
  split
  · next hx =>
    have hskip : ¬(x ≠ argumentsName ∧ x ∉ known) := fun h => hx.elim h.1 h.2
    simp [newNames, hskip]
  · next hx =>
    have htake : x ≠ argumentsName ∧ x ∉ known := not_or.1 hx
    rw [newNames, List.filter_cons_of_pos (by simpa using htake), List.eraseDups_cons, List.filter_filter]
    have hrest : ∀ y, (!(y == x) && decide (y ≠ argumentsName ∧ y ∉ known)) =
        decide (y ≠ argumentsName ∧ y ∉ known ++ [x]) := by
      intro y
      by_cases hy : y = x <;> simp [hy]
    rw [newNames, List.filter_congr fun y _ => hrest y]

/-- Names that are all new and come once each count all, but for that of all arguments. -/
theorem newNames_of_nodup {known names : List String} (h : names.Nodup) (hnew : ∀ x ∈ names, x ∉ known) :
    newNames known names = names.filter (· ≠ argumentsName) := by
  induction names generalizing known with
  | nil => rfl
  | cons x r ih =>
    obtain ⟨hx, hr⟩ := List.nodup_cons.1 h
    obtain ⟨hxnew, hrnew⟩ := List.forall_mem_cons.1 hnew
    rw [newNames_cons]
    by_cases harguments : x = argumentsName
    · simp [harguments, ih hr hrnew]
    · have hrest : ∀ y ∈ r, y ∉ known ++ [x] := by
        intro y hy
        have hne : y ≠ x := fun he => hx (he ▸ hy)
        simp [hrnew y hy, hne]
      simp [harguments, hxnew, ih hr hrest]

theorem nodup_newNames (known names : List String) : (newNames known names).Nodup := by
  induction names generalizing known with
  | nil => exact List.nodup_nil
  | cons x r ih =>
    rw [newNames_cons]
    split
    · exact ih known
    · refine List.nodup_cons.2 ⟨fun hx => ?_, ih _⟩
      exact (mem_newNames.1 hx).2.2 (List.mem_append_right _ List.mem_cons_self)

end StepTrace
