/-!
Values under keys, in the order in which the keys came first. A later value under a key replaces the
earlier one and keeps its place.
-/
namespace StepTrace

abbrev Keyed (κ α : Type) := List (κ × α)

namespace Keyed

variable {κ α : Type} [DecidableEq κ]

def keys (t : Keyed κ α) : List κ := t.map Prod.fst

def get? : Keyed κ α → κ → Option α
  | [], _ => none
  | (k', a) :: r, k => if k' = k then some a else get? r k

/-- Puts a value under a key: in the place of the value that is there, or at the end. -/
def put : Keyed κ α → κ → α → Keyed κ α
  | [], k, a => [(k, a)]
  | (k', b) :: r, k, a => if k' = k then (k', a) :: r else (k', b) :: put r k a

/-- The table of pairs that come one after the other. -/
def ofList (pairs : List (κ × α)) : Keyed κ α := pairs.foldl (fun t p => t.put p.1 p.2) []

/-- No key occurs twice. -/
def Distinct (t : Keyed κ α) : Prop := t.keys.Nodup

instance (t : Keyed κ α) : Decidable t.Distinct := inferInstanceAs (Decidable t.keys.Nodup)

theorem mem_of_get? {t : Keyed κ α} {k : κ} {a : α} (h : t.get? k = some a) : (k, a) ∈ t := by
  induction t with
  | nil => cases h
  | cons p r ih =>
    obtain ⟨i, b⟩ := p
    by_cases hi : i = k <;> simp_all [get?]

theorem get?_append (t u : Keyed κ α) (k : κ) : get? (t ++ u) k = (t.get? k).or (u.get? k) := by
  induction t with
  | nil => simp [get?]
  | cons p r ih =>
    obtain ⟨i, b⟩ := p
    by_cases hi : i = k <;> simp_all [get?]

/-- Changed values are found under the keys of the values. -/
theorem get?_map {β : Type} (f : α → β) (t : Keyed κ α) (k : κ) :
    get? (t.map fun m => (m.1, f m.2)) k = (t.get? k).map f := by
  induction t with
  | nil => rfl
  | cons p r ih =>
    obtain ⟨i, a⟩ := p
    by_cases hi : i = k <;> simp [get?, hi, ih]

/-- A value under a new key comes last. -/
theorem put_of_get?_eq_none {t : Keyed κ α} {k : κ} (h : t.get? k = none) (a : α) :
    t.put k a = t ++ [(k, a)] := by
  induction t with
  | nil => rfl
  | cons p r ih =>
    obtain ⟨i, b⟩ := p
    by_cases hi : i = k <;> simp_all [get?, put]

theorem get?_put (t : Keyed κ α) (k j : κ) (a : α) :
    (t.put k a).get? j = if k = j then some a else t.get? j := by
  induction t with
  | nil => rfl
  | cons p r ih =>
    obtain ⟨i, b⟩ := p
    by_cases hi : i = k
    · subst hi
      by_cases hj : i = j <;> simp [put, get?, hj]
    · by_cases hj : i = j
      · subst hj
        simp [put, get?, hi, Ne.symm hi]
      · simp [put, get?, hi, hj, ih]

/-- A new key comes last. -/
theorem keys_put (t : Keyed κ α) (k : κ) (a : α) :
    (t.put k a).keys = if k ∈ t.keys then t.keys else t.keys ++ [k] := by
  induction t with
  | nil => simp [put, keys]
  | cons p r ih =>
    obtain ⟨i, b⟩ := p
    by_cases hi : i = k
    · simp [put, keys, hi]
    · have hk : k ≠ i := Ne.symm hi
      simp only [keys] at ih
      by_cases hm : k ∈ r.map Prod.fst <;> simp_all [put, keys]

theorem mem_keys_put (t : Keyed κ α) (k j : κ) (a : α) :
    j ∈ (t.put k a).keys ↔ j ∈ t.keys ∨ j = k := by
  rw [keys_put]
  split
  · next hk => exact ⟨Or.inl, fun h => h.elim id fun e => e ▸ hk⟩
  · simp

theorem Distinct.put {t : Keyed κ α} (h : t.Distinct) (k : κ) (a : α) : (t.put k a).Distinct := by
  unfold Distinct at *
  rw [keys_put]
  split
  · exact h
  · rename_i hk
    exact List.nodup_append.2 ⟨h, by simp, by
      intro x hx y hy
      simp only [List.mem_singleton] at hy
      subst hy
      intro he
      exact hk (he ▸ hx)⟩

/-- A pair of a table without repeated keys is what is found under its key. -/
theorem Distinct.get?_of_mem {t : Keyed κ α} (h : t.Distinct) {k : κ} {a : α} (hm : (k, a) ∈ t) :
    t.get? k = some a := by
  induction t with
  | nil => cases hm
  | cons p r ih =>
    obtain ⟨i, b⟩ := p
    obtain ⟨hi, hr⟩ := List.nodup_cons.1 h
    rcases List.mem_cons.1 hm with he | hm
    · cases he
      simp [get?]
    · have hk : k ∈ Keyed.keys r := List.mem_map.2 ⟨(k, a), hm, rfl⟩
      have hne : i ≠ k := fun he => hi (he ▸ hk)
      simp [get?, hne, ih hr hm]

end Keyed
end StepTrace
