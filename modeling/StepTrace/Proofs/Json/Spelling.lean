import StepTrace.Proofs.Json.Series

/-!
The characters that spell a tree. Blanks may stand where a line may be broken: before an item or a member, before
the end of an array or an object, and after the colon of a member. However it is spelled, the tree is read.
-/
namespace StepTrace.Json

mutual

/-- Characters that spell a tree. -/
inductive Spells : List Char → Raw → Prop
  | null : Spells ['n', 'u', 'l', 'l'] .null
  | true : Spells ['t', 'r', 'u', 'e'] (.bool true)
  | false : Spells ['f', 'a', 'l', 's', 'e'] (.bool false)
  | number {cs : List Char} {n : Numeral} (h : Numeral.read cs = some (n, [])) : Spells cs (.number n)
  | text (s : String) : Spells (Quoted.write s) (.text (s.toList.map Quoted.pieceOf))
  | noItems : Spells ['[', ']'] (.array [])
  | array {cs : List Char} {items : List Raw} (h : SpellsItems cs items) :
      Spells ('[' :: cs) (.array items)
  | noMembers : Spells ['\x7b', '\x7d'] (.object [])
  | object {cs : List Char} {members : List (Quoted × Raw)} (h : SpellsMembers cs members) :
      Spells ('\x7b' :: cs) (.object members)

/-- Characters that spell the items of an array and its end. -/
inductive SpellsItems : List Char → List Raw → Prop
  | last {b cs e : List Char} {v : Raw} (before : Blanks b) (h : Spells cs v) (after : Blanks e) :
      SpellsItems (b ++ (cs ++ (e ++ [']']))) [v]
  | cons {b cs r : List Char} {v : Raw} {items : List Raw} (before : Blanks b) (h : Spells cs v)
      (rest : SpellsItems r items) : SpellsItems (b ++ (cs ++ ',' :: r)) (v :: items)

/-- Characters that spell the members of an object and its end. -/
inductive SpellsMembers : List Char → List (Quoted × Raw) → Prop
  | last {b c cs e : List Char} {v : Raw} (name : String) (before : Blanks b) (colon : Blanks c)
      (h : Spells cs v) (after : Blanks e) :
      SpellsMembers (b ++ (Quoted.write name ++ ':' :: (c ++ (cs ++ (e ++ ['\x7d'])))))
        [(name.toList.map Quoted.pieceOf, v)]
  | cons {b c cs r : List Char} {v : Raw} {members : List (Quoted × Raw)} (name : String)
      (before : Blanks b) (colon : Blanks c) (h : Spells cs v) (rest : SpellsMembers r members) :
      SpellsMembers (b ++ (Quoted.write name ++ ':' :: (c ++ (cs ++ ',' :: r))))
        ((name.toList.map Quoted.pieceOf, v) :: members)

end

theorem readsMember_write {b c cs : List Char} {v : Raw} (name : String) (before : Blanks b) (colon : Blanks c)
    (h : Reads cs v) :
    ReadsMember (b ++ (Quoted.write name ++ ':' :: (c ++ cs))) (name.toList.map Quoted.pieceOf, v) := by
  have hmember := readsMember before (Quoted.closes_escaped name.toList) blanks_nil (h.after_blanks colon)
  simpa [Quoted.write] using hmember

mutual

/-- What spells a tree is read as the tree. -/
theorem Spells.reads {cs : List Char} {v : Raw} (h : Spells cs v) : Reads cs v := by
  match h with
  | .null => exact reads_null
  | .true => exact reads_true
  | .false => exact reads_false
  | .number h => exact reads_number h
  | .text s => exact reads_text (Quoted.closes_escaped s.toList)
  | .noItems => exact reads_noItems blanks_nil
  | .array h =>
    obtain ⟨parts, hne, rfl, hparts⟩ := h.exists_parts
    exact reads_array hne hparts
  | .noMembers => exact reads_noMembers blanks_nil
  | .object h =>
    obtain ⟨parts, hne, rfl, hparts⟩ := h.exists_parts
    exact reads_object hne hparts

theorem SpellsItems.exists_parts {cs : List Char} {items : List Raw} (h : SpellsItems cs items) :
    ∃ parts, parts ≠ [] ∧ cs = [','].intercalate parts ++ [']'] ∧ List.Forall₂ Reads parts items := by
  match h with
  | .last before h after =>
    have hpart := Reads.after_blanks (h.reads.append_blanks after) before
    exact ⟨[_], List.cons_ne_nil _ [], by simp, .cons hpart .nil⟩
  | .cons before h rest =>
    obtain ⟨parts, hne, rfl, hparts⟩ := rest.exists_parts
    refine ⟨_ :: parts, by simp, ?_, .cons (h.reads.after_blanks before) hparts⟩
    rw [List.intercalate_cons_of_ne_nil hne]
    simp

theorem SpellsMembers.exists_parts {cs : List Char} {members : List (Quoted × Raw)}
    (h : SpellsMembers cs members) :
    ∃ parts, parts ≠ [] ∧ cs = [','].intercalate parts ++ ['\x7d'] ∧
      List.Forall₂ ReadsMember parts members := by
  match h with
  | .last name before colon h after =>
    have hpart := readsMember_write name before colon (h.reads.append_blanks after)
    exact ⟨_, List.cons_ne_nil _ [], by simp, .cons hpart .nil⟩
  | .cons name before colon h rest =>
    obtain ⟨parts, hne, rfl, hparts⟩ := rest.exists_parts
    refine ⟨_ :: parts, by simp, ?_, .cons (readsMember_write name before colon h.reads) hparts⟩
    rw [List.intercalate_cons_of_ne_nil hne]
    simp

end

/-- A text that spells a tree is read as the tree. -/
theorem rawOfText?_of_spells {cs : List Char} {v : Raw} (h : Spells cs v) :
    Raw.ofText? (String.ofList cs) = some v := by
  rw [rawOfText?_eq_some_iff, String.toList_ofList]
  exact h.reads

end StepTrace.Json
