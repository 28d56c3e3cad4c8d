import Mathlib.Data.List.TakeWhile
import StepTrace.Text.Blank

/-!
Blanks at the ends of a text. They do not matter to what is left when the text is trimmed, and nothing is left
of a text of blanks.
-/
namespace StepTrace.Text

/-- Characters that are all blank. -/
def IsBlank (cs : List Char) : Prop := ∀ c ∈ cs, isWhiteSpace c

instance (cs : List Char) : Decidable (IsBlank cs) := List.decidableBAll (fun c => isWhiteSpace c) cs

theorem isBlank_reverse {cs : List Char} : IsBlank cs.reverse ↔ IsBlank cs := by
  simp [IsBlank]

theorem dropWhile_eq_nil_iff {cs : List Char} : cs.dropWhile isWhiteSpace = [] ↔ IsBlank cs :=
  List.dropWhile_eq_nil_iff

theorem trim_isEmpty_iff (s : String) : (trim s).isEmpty ↔ IsBlank s.toList := by
  have hblank (cs : List Char) :
      ((cs.dropWhile isWhiteSpace).reverse.dropWhile isWhiteSpace) = [] ↔ IsBlank cs := by
    rw [dropWhile_eq_nil_iff, isBlank_reverse]
    constructor
    · intro h c hc
      rw [← List.takeWhile_append_dropWhile (p := isWhiteSpace) (l := cs)] at hc
      rcases List.mem_append.1 hc with hc | hc
      · exact List.mem_takeWhile_imp hc
      · exact h c hc
    · exact fun h c hc => h c ((List.dropWhile_suffix _).subset hc)
  simp [trim, hblank]

/-- Blanks before and after a text are trimmed away. -/
theorem trim_pad {a b : List Char} (ha : IsBlank a) (hb : IsBlank b) (cs : List Char) :
    trim (String.ofList (a ++ cs ++ b)) = trim (String.ofList cs) := by
  have hend (cs : List Char) : (cs ++ b).reverse.dropWhile isWhiteSpace = cs.reverse.dropWhile isWhiteSpace := by
    rw [List.reverse_append, List.dropWhile_append_of_pos (isBlank_reverse.2 hb)]
  have hstart : (cs ++ b).dropWhile isWhiteSpace =
      cs.dropWhile isWhiteSpace ++ if IsBlank cs then [] else b := by
    rw [List.dropWhile_append]
    split
    · next h =>
      have hcs : IsBlank cs := dropWhile_eq_nil_iff.1 (List.isEmpty_iff.1 h)
      rw [if_pos hcs, dropWhile_eq_nil_iff.2 hb, dropWhile_eq_nil_iff.2 hcs, List.append_nil]
    · next h =>
      have hcs : ¬ IsBlank cs := fun hcs => h (List.isEmpty_iff.2 (dropWhile_eq_nil_iff.2 hcs))
      rw [if_neg hcs]
  simp only [trim, String.toList_ofList, List.append_assoc, List.dropWhile_append_of_pos ha, hstart]
  split
  · rw [List.append_nil]
  · rw [hend]

end StepTrace.Text
