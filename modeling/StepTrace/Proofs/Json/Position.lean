import StepTrace.Json.Basic

/-!
Positions in a value. A position says by which children to go down from the top; and what holds of a value as
soon as it holds of its children holds of all values.
-/
namespace StepTrace.Json

/-- What a value holds directly: the items of an array, or what stands under the names of an object. -/
def children : Json → List Json
  | .array items => items
  | .object members => members.map Prod.snd
  | _ => []

/-- The value at a position, if there is one. -/
def at? (v : Json) : List Nat → Option Json
  | [] => some v
  | i :: p => v.children[i]?.bind fun w => w.at? p

@[simp] theorem at?_nil (v : Json) : v.at? [] = some v := rfl

theorem at?_cons_eq_some_iff {v w : Json} {i : Nat} {p : List Nat} :
    v.at? (i :: p) = some w ↔ ∃ u, v.children[i]? = some u ∧ u.at? p = some w :=
  Option.bind_eq_some_iff

/-- The positions of a value are its top and those of its children. -/
theorem forall_at?_iff {P : Json → Prop} {v : Json} :
    (∀ p w, v.at? p = some w → P w) ↔ P v ∧ ∀ c ∈ v.children, ∀ p w, c.at? p = some w → P w := by
  constructor
  · intro h
    refine ⟨h [] v rfl, fun c hc p w hw => ?_⟩
    obtain ⟨i, hi⟩ := List.mem_iff_getElem?.1 hc
    exact h (i :: p) w (at?_cons_eq_some_iff.2 ⟨c, hi, hw⟩)
  · rintro ⟨hv, hchildren⟩ p w hw
    cases p with
    | nil =>
      cases hw
      exact hv
    | cons i p =>
      obtain ⟨c, hc, hw⟩ := at?_cons_eq_some_iff.1 hw
      exact hchildren c (List.mem_of_getElem? hc) p w hw

theorem sizeOf_lt_of_mem_children {v w : Json} (h : w ∈ v.children) : sizeOf w < sizeOf v := by
  cases v with
  | array items =>
    have hw : sizeOf w < sizeOf items := List.sizeOf_lt_of_mem h
    simp only [Json.array.sizeOf_spec]
    omega
  | object members =>
    obtain ⟨m, hm, rfl⟩ := List.mem_map.1 h
    have hsize := List.sizeOf_lt_of_mem hm
    have hsnd : sizeOf m.2 < sizeOf m := by
      cases m
      simp only [Prod.mk.sizeOf_spec]
      omega
    simp only [Json.object.sizeOf_spec]
    omega
  | _ => cases h

/-- Induction from the children of a value to the value. -/
theorem childInduction {P : Json → Prop} (step : ∀ v, (∀ w ∈ v.children, P w) → P v) (v : Json) : P v :=
  step v fun w hw =>
    have := sizeOf_lt_of_mem_children hw
    childInduction step w
termination_by sizeOf v

end StepTrace.Json
