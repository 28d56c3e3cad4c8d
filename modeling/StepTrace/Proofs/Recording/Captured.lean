import StepTrace.Proofs.Names
import StepTrace.Recording.Bindings

/-!
What a capture keeps. It takes the names in their order, each once and without that of all arguments, until it
is full; under each of them stands what its own read gives.
-/
namespace StepTrace.Recording

/-- At most so many of the first ones; all of them without a limit. -/
def firstOf {α : Type} (limit : Option Nat) (l : List α) : List α :=
  match limit with
  | none => l
  | some n => l.take n

/-- With a limit that is one higher there is no change but at the end. -/
theorem firstOf_isPrefix {α : Type} (n : Nat) (l : List α) : firstOf (some n) l <+: firstOf (some (n + 1)) l :=
  List.take_prefix_take_left (Nat.le_succ n)

theorem firstOf_map {α β : Type} (f : α → β) (limit : Option Nat) (l : List α) :
    firstOf limit (l.map f) = (firstOf limit l).map f := by
  cases limit with
  | none => rfl
  | some n => exact List.map_take.symm

theorem mem_of_mem_firstOf {α : Type} {limit : Option Nat} {l : List α} {x : α} (h : x ∈ firstOf limit l) :
    x ∈ l := by
  cases limit with
  | none => exact h
  | some n => exact List.mem_of_mem_take h

namespace Bindings

/-- A name with the value that is kept for it. -/
def entry (b : Bindings) (name : String) : String × Json := (name, b.kept name)

/-- A name that comes again changes nothing. -/
theorem put_entry_of_mem (b : Bindings) {names : List String} {x : String} (h : x ∈ names) :
    Keyed.put (names.map b.entry) x (b.kept x) = names.map b.entry := by
  induction names with
  | nil => cases h
  | cons y r ih =>
    rw [List.map_cons, entry, Keyed.put]
    split
    · next hy => rw [hy]
    · next hy => rw [ih (List.mem_of_ne_of_mem (Ne.symm hy) h)]

theorem put_entry_of_not_mem (b : Bindings) {names : List String} {x : String} (h : x ∉ names) :
    Keyed.put (names.map b.entry) x (b.kept x) = (names ++ [x]).map b.entry := by
  induction names with
  | nil => rfl
  | cons y r ih =>
    have hne := (List.ne_of_not_mem_cons h).symm
    rw [List.map_cons, entry, Keyed.put, if_neg hne, ih (List.not_mem_of_not_mem_cons h)]
    rfl

/-- What is captured after some names: the next new ones, as far as there is room. -/
theorem captureFrom_map_entry (b : Bindings) (limit : Option Nat) (seen names : List String) :
    b.captureFrom limit (seen.map b.entry) names =
      (seen ++ firstOf (limit.map (· - seen.length)) (newNames seen names)).map b.entry := by
  induction names generalizing seen with
  | nil => cases limit <;> simp [captureFrom, firstOf, newNames]
  | cons x r ih =>
    rw [captureFrom, List.length_map]
    cases hfull : isFull limit seen.length with
    | true =>
      cases limit with
      | none => cases hfull
      | some n =>
        have hroom : n - seen.length = 0 := Nat.sub_eq_zero_of_le (of_decide_eq_true hfull)
        simp [firstOf, hroom]
    | false =>
      rw [if_neg Bool.false_ne_true, newNames_cons]
      by_cases hx : x = argumentsName
      · rw [if_pos hx, if_pos (Or.inl hx)]
        exact ih seen
      · by_cases hmem : x ∈ seen
        · rw [if_neg hx, if_pos (Or.inr hmem), put_entry_of_mem b hmem]
          exact ih seen
        · rw [if_neg hx, if_neg (not_or.2 ⟨hx, hmem⟩), put_entry_of_not_mem b hmem, ih (seen ++ [x])]
          cases limit with
          | none => simp [firstOf]
          | some n =>
            have hroom : n - seen.length = n - (seen.length + 1) + 1 := by
              have := of_decide_eq_false hfull
              omega
            simp [firstOf, hroom]

/-- The first new names with the values that are kept for them. -/
theorem capture_eq_map_entry (b : Bindings) (limit : Option Nat) :
    b.capture limit = (firstOf limit (newNames [] b.names)).map b.entry := by
  have h := captureFrom_map_entry b limit [] b.names
  cases limit <;> exact h

/-- A capture has the first names of the bindings, each once and without that of all arguments, and under each
what its own read gives. With a limit that is one higher it goes on where it ended, and the name of all
arguments takes no room. -/
theorem capture_eq_firstOf (b : Bindings) (limit : Option Nat) :
    b.capture limit =
      (firstOf limit (b.names.filter (· ≠ argumentsName)).eraseDups).map (fun x => (x, match b.read x with
        | .ok v => v
        | .error (.unavailable _) => .text "[unavailable]"
        | .error (.unserializable _) => .text "[unserializable]")) ∧
    (∀ n, b.capture (some n) <+: b.capture (some (n + 1))) ∧
    b.capture limit = { b with names := b.names.filter (· ≠ argumentsName) }.capture limit := by
  have hnames : newNames [] b.names = (b.names.filter (· ≠ argumentsName)).eraseDups := by
    simp [newNames]
  have hentry : b.entry = fun x => (x, match b.read x with
      | .ok v => v
      | .error (.unavailable _) => .text "[unavailable]"
      | .error (.unserializable _) => .text "[unserializable]") := by
    funext x
    rw [entry, kept]
    cases b.read x with
    | ok v => rfl
    | error f => cases f <;> rfl
  refine ⟨?_, fun n => ?_, ?_⟩
  · rw [capture_eq_map_entry, hnames, hentry]
  · rw [capture_eq_map_entry, capture_eq_map_entry]
    exact (firstOf_isPrefix n _).map b.entry
  · have hsame : newNames [] (b.names.filter (· ≠ argumentsName)) = newNames [] b.names := by
      simp [newNames, List.filter_filter]
    rw [capture_eq_map_entry, capture_eq_map_entry, hsame]
    rfl

end Bindings

end StepTrace.Recording
