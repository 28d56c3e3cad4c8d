import Mathlib.Data.List.Induction
import StepTrace.Keyed

/-!
Tables with and without a key, backwards, and made of pairs that come one after the other.
-/
namespace StepTrace

namespace Keyed

variable {κ α : Type} [DecidableEq κ]

theorem get?_eq_none_iff {t : Keyed κ α} {k : κ} : t.get? k = none ↔ k ∉ t.keys := by
  induction t with
  | nil => simp [get?, keys]
  | cons p r ih =>
    obtain ⟨i, b⟩ := p
    by_cases hi : i = k
    · simp [get?, keys, hi]
    · simpa [get?, keys, hi, Ne.symm hi] using ih

omit [DecidableEq κ] in
theorem keys_reverse (t : Keyed κ α) : keys t.reverse = t.keys.reverse := List.map_reverse

/-- Tables with the same keys in the same order are equal if they hold the same. -/
theorem Distinct.eq_of_get? {t u : Keyed κ α} (ht : t.Distinct) (hk : t.keys = u.keys)
    (h : ∀ k, t.get? k = u.get? k) : t = u := by
  induction t generalizing u with
  | nil =>
    cases u with
    | nil => rfl
    | cons p u => simp [keys] at hk
  | cons p t ih =>
    cases u with
    | nil => simp [keys] at hk
    | cons q u =>
      obtain ⟨i, a⟩ := p
      obtain ⟨j, b⟩ := q
      obtain ⟨rfl, htu⟩ : i = j ∧ keys t = keys u := by simpa [keys] using hk
      obtain ⟨hi, hr⟩ := List.nodup_cons.1 ht
      have hab : a = b := by simpa [get?] using h i
      subst hab
      refine congrArg _ (ih hr htu fun k => ?_)
      by_cases hik : i = k
      · subst hik
        have hu : i ∉ keys u := htu ▸ hi
        rw [get?_eq_none_iff.2 hi, get?_eq_none_iff.2 hu]
      · simpa [get?, hik] using h k

/-- Where no key is written twice, each value that is written is the last one. -/
theorem Distinct.get?_reverse {t : Keyed κ α} (h : t.Distinct) {k : κ} {a : α} (hm : (k, a) ∈ t) :
    get? t.reverse k = some a := by
  have hr : Distinct t.reverse := by
    unfold Distinct
    rw [keys_reverse]
    exact List.pairwise_reverse.2 (h.imp Ne.symm)
  exact hr.get?_of_mem (List.mem_reverse.2 hm)

theorem mem_of_mem_put {t : Keyed κ α} {k : κ} {a : α} {p : κ × α} (h : p ∈ t.put k a) :
    p ∈ t ∨ p = (k, a) := by
  induction t with
  | nil => exact .inr (List.mem_singleton.1 h)
  | cons q r ih =>
    obtain ⟨i, b⟩ := q
    rw [put] at h
    split at h
    · next hi =>
      obtain rfl | hr := List.mem_cons.1 h
      · exact .inr (by rw [hi])
      · exact .inl (List.mem_cons_of_mem _ hr)
    · obtain rfl | hr := List.mem_cons.1 h
      · exact .inl List.mem_cons_self
      · exact (ih hr).imp_left (List.mem_cons_of_mem _)

/-! ### Tables of pairs -/

theorem ofList_concat (pairs : List (κ × α)) (p : κ × α) :
    ofList (pairs ++ [p]) = (ofList pairs).put p.1 p.2 := by
  simp [ofList]

theorem distinct_ofList (pairs : List (κ × α)) : (ofList pairs).Distinct := by
  induction pairs using List.reverseRecOn with
  | nil => exact List.nodup_nil
  | append_singleton pairs q ih =>
    rw [ofList_concat]
    exact ih.put _ _

theorem mem_of_mem_ofList {pairs : List (κ × α)} {p : κ × α} (h : p ∈ ofList pairs) : p ∈ pairs := by
  induction pairs using List.reverseRecOn with
  | nil => exact h
  | append_singleton pairs q ih =>
    rw [ofList_concat] at h
    obtain hp | rfl := mem_of_mem_put h
    · exact List.mem_append_left _ (ih hp)
    · exact List.mem_append_right _ List.mem_cons_self

/-- Pairs under different keys are their own table. -/
theorem ofList_of_distinct {t : Keyed κ α} (h : t.Distinct) : ofList t = t := by
  induction t using List.reverseRecOn with
  | nil => rfl
  | append_singleton t p ih =>
    have hkeys : (keys t ++ [p.1]).Nodup := by simpa [Distinct, keys] using h
    obtain ⟨ht, -, hne⟩ := List.nodup_append.1 hkeys
    have hnew : p.1 ∉ keys t := fun hm => hne _ hm _ (List.mem_singleton_self _) rfl
    rw [ofList_concat, ih ht]
    exact put_of_get?_eq_none (get?_eq_none_iff.2 hnew) p.2

end Keyed

end StepTrace
