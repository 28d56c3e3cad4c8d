import StepTrace.Proofs.Json.Spelling
import StepTrace.Proofs.Keyed

/-!
What is written is read again. Compact or with one item or member to a line, the characters of a value spell the
same tree, and the tree stands for the value as long as its containers are not nested too deep.
-/
namespace StepTrace.Json

/-! ### The tree that a value is written as -/

/-- The number that characters are read as. -/
def Numeral.ofChars (cs : List Char) : Numeral := (Numeral.read cs).elim default Prod.fst

mutual

def tree : Json → Raw
  | .null => .null
  | .bool b => .bool b
  | .int n => .number (.ofChars (intChars n))
  | .float x => .number (.ofChars (compact (.float x)))
  | .text s => .text (s.toList.map Quoted.pieceOf)
  | .array items => .array (trees items)
  | .object members => .object (memberTrees members)

def trees : List Json → List Raw
  | [] => []
  | v :: r => v.tree :: trees r

def memberTrees : List (String × Json) → List (Quoted × Raw)
  | [] => []
  | (name, v) :: r => (name.toList.map Quoted.pieceOf, v.tree) :: memberTrees r

end

mutual

/-- A value that JSON can hold and that its text gives back: integers have 64 bits, the text of a float is
read as the float, and no name occurs twice in an object. -/
def IsReadable : Json → Prop
  | .null | .bool _ | .text _ => True
  | .int n => -(Nat.pow 2 63 : Int) ≤ n ∧ n < (Nat.pow 2 64 : Int)
  | .float x => ∃ n, Numeral.read (compact (.float x)) = some (n, []) ∧ n.value? = some (.float x)
  | .array items => AreReadable items
  | .object members => Keyed.Distinct members ∧ MembersReadable members

def AreReadable : List Json → Prop
  | [] => True
  | v :: r => v.IsReadable ∧ AreReadable r

def MembersReadable : List (String × Json) → Prop
  | [] => True
  | (_, v) :: r => v.IsReadable ∧ MembersReadable r

end

mutual

/-- How many containers are nested in each other at most. -/
def depth : Json → Nat
  | .null | .bool _ | .int _ | .float _ | .text _ => 0
  | .array items => depthOf items + 1
  | .object members => memberDepth members + 1

def depthOf : List Json → Nat
  | [] => 0
  | v :: r => max v.depth (depthOf r)

def memberDepth : List (String × Json) → Nat
  | [] => 0
  | (_, v) :: r => max v.depth (memberDepth r)

end

/-! ### Items and members -/

theorem isReadable_ofNat {n : Nat} (h : n < Nat.pow 2 64) : (ofNat n).IsReadable := by
  have hnonneg : -(Nat.pow 2 63 : Int) ≤ n := by omega
  exact ⟨hnonneg, Int.ofNat_lt.2 h⟩

theorem areReadable_iff {items : List Json} : AreReadable items ↔ ∀ v ∈ items, v.IsReadable := by
  induction items with
  | nil => simp [AreReadable]
  | cons v r ih => simp [AreReadable, ih]

theorem membersReadable_iff {members : List (String × Json)} :
    MembersReadable members ↔ ∀ v ∈ members.map Prod.snd, v.IsReadable := by
  induction members with
  | nil => simp [MembersReadable]
  | cons m r ih => simp [MembersReadable, ih]

theorem depthOf_le_iff {items : List Json} {n : Nat} : depthOf items ≤ n ↔ ∀ v ∈ items, v.depth ≤ n := by
  induction items with
  | nil => simp [depthOf]
  | cons v r ih => simp [depthOf, ih]

theorem memberDepth_le_iff {members : List (String × Json)} {n : Nat} :
    memberDepth members ≤ n ↔ ∀ m ∈ members, m.2.depth ≤ n := by
  induction members with
  | nil => simp [memberDepth]
  | cons m r ih => simp [memberDepth, ih]

/-! ### How a value is written -/

mutual

/-- The compact form of a value spells its tree. -/
theorem spells_compact (v : Json) (h : v.IsReadable) : Spells v.compact v.tree := by
  have hnumber {cs : List Char} {n : Numeral} (h : Numeral.read cs = some (n, [])) :
      Spells cs (.number (.ofChars cs)) := by
    have hn : Numeral.ofChars cs = n := by rw [Numeral.ofChars, h, Option.elim_some]
    exact .number (hn ▸ h)
  cases v with
  | null => exact .null
  | bool b =>
    cases b with
    | false => exact .false
    | true => exact .true
  | int n =>
    obtain ⟨m, hm, -⟩ := Numeral.read_intChars h.1 h.2
    exact hnumber hm
  | float x =>
    obtain ⟨m, hm, -⟩ := h
    exact hnumber hm
  | text s => exact .text s
  | array items =>
    cases items with
    | nil => exact .noItems
    | cons v r => exact .array (spellsItems_compact (v :: r) (List.cons_ne_nil v r) h)
  | object members =>
    cases members with
    | nil => exact .noMembers
    | cons m r => exact .object (spellsMembers_compact (m :: r) (List.cons_ne_nil m r) h.2)

theorem spellsItems_compact (items : List Json) (hne : items ≠ []) (h : AreReadable items) :
    SpellsItems (compactItems items ++ [']']) (trees items) := by
  match items, h with
  | [], _ => exact absurd rfl hne
  | [v], h => exact .last blanks_nil (spells_compact v h.1) blanks_nil
  | v :: w :: r, h =>
    rw [compactItems, List.append_assoc]
    exact .cons blanks_nil (spells_compact v h.1) (spellsItems_compact (w :: r) (List.cons_ne_nil w r) h.2)

theorem spellsMembers_compact (members : List (String × Json)) (hne : members ≠ [])
    (h : MembersReadable members) :
    SpellsMembers (compactMembers members ++ ['\x7d']) (memberTrees members) := by
  match members, h with
  | [], _ => exact absurd rfl hne
  | [(name, v)], h =>
    rw [compactMembers, List.append_assoc]
    exact .last name blanks_nil blanks_nil (spells_compact v h.1) blanks_nil
  | (name, v) :: m :: r, h =>
    rw [compactMembers, List.append_assoc, List.cons_append, List.append_assoc]
    exact .cons name blanks_nil blanks_nil (spells_compact v h.1)
      (spellsMembers_compact (m :: r) (List.cons_ne_nil m r) h.2)

end

theorem blanks_lineStart (depth : Nat) : Blanks (lineStart depth) := by
  simp [Blanks, lineStart, Raw.isBlank]

mutual

/-- The indented form of a value spells the same tree. -/
theorem spells_indented (v : Json) (h : v.IsReadable) (depth : Nat) : Spells (v.indented depth) v.tree := by
  cases v with
  | array items =>
    cases items with
    | nil => exact .noItems
    | cons v r => exact .array (spellsItems_indented (v :: r) (List.cons_ne_nil v r) h depth)
  | object members =>
    cases members with
    | nil => exact .noMembers
    | cons m r => exact .object (spellsMembers_indented (m :: r) (List.cons_ne_nil m r) h.2 depth)
  | bool b => cases b <;> exact spells_compact _ h
  | _ => exact spells_compact _ h

theorem spellsItems_indented (items : List Json) (hne : items ≠ []) (h : AreReadable items) (depth : Nat) :
    SpellsItems (indentedItems (depth + 1) items ++ (lineStart depth ++ [']'])) (trees items) := by
  match items, h with
  | [], _ => exact absurd rfl hne
  | [v], h =>
    rw [indentedItems, List.append_assoc]
    exact .last (blanks_lineStart _) (spells_indented v h.1 _) (blanks_lineStart _)
  | v :: w :: r, h =>
    rw [indentedItems, List.append_assoc, List.append_assoc]
    exact .cons (blanks_lineStart _) (spells_indented v h.1 _)
      (spellsItems_indented (w :: r) (List.cons_ne_nil w r) h.2 depth)

theorem spellsMembers_indented (members : List (String × Json)) (hne : members ≠ [])
    (h : MembersReadable members) (depth : Nat) :
    SpellsMembers (indentedMembers (depth + 1) members ++ (lineStart depth ++ ['\x7d']))
      (memberTrees members) := by
  have hcolon : Blanks [' '] := by simp [Blanks, Raw.isBlank]
  match members, h with
  | [], _ => exact absurd rfl hne
  | [(name, v)], h =>
    rw [indentedMembers, List.append_assoc, List.append_assoc]
    exact .last name (blanks_lineStart _) hcolon (spells_indented v h.1 _) (blanks_lineStart _)
  | (name, v) :: m :: r, h =>
    rw [indentedMembers, List.append_assoc, List.append_assoc, List.cons_append, List.cons_append,
      List.append_assoc]
    exact .cons name (blanks_lineStart _) hcolon (spells_indented v h.1 _)
      (spellsMembers_indented (m :: r) (List.cons_ne_nil m r) h.2 depth)

end

/-- The text of a value is read as its tree. -/
theorem rawOfText?_compactText (v : Json) (h : v.IsReadable) :
    Raw.ofText? v.compactText = some v.tree := rawOfText?_of_spells (spells_compact v h)

/-- And so is its text with one item or member to a line. -/
theorem rawOfText?_indentedText (v : Json) (h : v.IsReadable) :
    Raw.ofText? v.indentedText = some v.tree := rawOfText?_of_spells (spells_indented v h 0)

/-! ### What the tree stands for -/

mutual

/-- The tree of a value stands for it wherever its depth is allowed. -/
theorem value?_tree (v : Json) (h : v.IsReadable) (limit : Nat) (hdepth : v.depth ≤ limit) :
    Raw.value? limit v.tree = some v := by
  cases v with
  | null => rfl
  | bool b => rfl
  | int n =>
    obtain ⟨m, hm, hv⟩ := Numeral.read_intChars h.1 h.2
    rw [tree, Numeral.ofChars, hm]
    exact hv
  | float x =>
    obtain ⟨m, hm, hv⟩ := h
    rw [tree, Numeral.ofChars, hm]
    exact hv
  | text s => rw [tree, Raw.value?, Quoted.text?_pieces, Option.map_some]
  | array items =>
    rw [depth] at hdepth
    rw [tree, Raw.value?, if_neg (by omega), values?_trees items h (limit - 1) (by omega)]
    rfl
  | object members =>
    rw [depth] at hdepth
    rw [tree, Raw.value?, if_neg (by omega), members?_memberTrees members h.2 (limit - 1) (by omega),
      Option.map_some, Keyed.ofList_of_distinct h.1]

theorem values?_trees (items : List Json) (h : AreReadable items) (limit : Nat)
    (hdepth : depthOf items ≤ limit) : Raw.values? limit (trees items) = some items := by
  cases items with
  | nil => rfl
  | cons v r =>
    rw [depthOf] at hdepth
    rw [trees, Raw.values?, value?_tree v h.1 limit (by omega), values?_trees r h.2 limit (by omega)]
    rfl

theorem members?_memberTrees (members : List (String × Json)) (h : MembersReadable members)
    (limit : Nat) (hdepth : memberDepth members ≤ limit) :
    Raw.members? limit (memberTrees members) = some members := by
  cases members with
  | nil => rfl
  | cons m r =>
    cases m with
    | mk name v =>
      rw [memberDepth] at hdepth
      rw [memberTrees, Raw.members?, Quoted.text?_pieces, value?_tree v h.1 limit (by omega),
        members?_memberTrees r h.2 limit (by omega)]
      rfl

end

/-- A value comes back from a text that is read as its tree. -/
theorem ofText?_of_rawOfText? {v : Json} {text : String} (htext : Raw.ofText? text = some v.tree)
    (h : v.IsReadable) {limit : Nat} (hdepth : v.depth ≤ limit) : ofText? limit text = some v := by
  rw [ofText?, htext, Option.bind_some, value?_tree v h limit hdepth]

/-! ### A line -/

mutual

/-- A value is written on one line. -/
theorem feed_not_mem_compact (v : Json) (h : v.IsReadable) : '\n' ∉ v.compact := by
  cases v with
  | null => decide
  | bool b => cases b <;> decide
  | int n =>
    obtain ⟨m, hm, -⟩ := Numeral.read_intChars h.1 h.2
    exact Numeral.feed_not_mem_of_read hm
  | float x =>
    obtain ⟨m, hm, -⟩ := h
    exact Numeral.feed_not_mem_of_read hm
  | text s => exact Quoted.feed_not_mem_write s
  | array items => simp [compact, feed_not_mem_compactItems items h]
  | object members => simp [compact, feed_not_mem_compactMembers members h.2]

theorem feed_not_mem_compactItems (items : List Json) (h : AreReadable items) :
    '\n' ∉ compactItems items := by
  cases items with
  | nil => exact List.not_mem_nil
  | cons v r =>
    have hv := feed_not_mem_compact v h.1
    have hr := feed_not_mem_compactItems r h.2
    cases r with
    | nil => exact hv
    | cons w r => simp [compactItems, hv, hr]

theorem feed_not_mem_compactMembers (members : List (String × Json)) (h : MembersReadable members) :
    '\n' ∉ compactMembers members := by
  cases members with
  | nil => exact List.not_mem_nil
  | cons m r =>
    cases m with
    | mk name v =>
      have hname := Quoted.feed_not_mem_write name
      have hv := feed_not_mem_compact v h.1
      have hr := feed_not_mem_compactMembers r h.2
      cases r with
      | nil => simp [compactMembers, hname, hv]
      | cons m r => simp [compactMembers, hname, hv, hr]

end

end StepTrace.Json
