import Mathlib.Data.List.DropRight
import Mathlib.Data.List.Forall2
import StepTrace.Proofs.Json.Numeral
import StepTrace.Proofs.Json.Quoted

/-!
What stands between brackets. Items and members are read in the same way, one by one up to what closes them, and
what one of them is read as does not depend on what comes after it. So a text is read part by part, and whatever its
parts are, they are read as what each of them is read as alone.
-/
namespace StepTrace.Json

def Blanks (cs : List Char) : Prop := ∀ c ∈ cs, Raw.isBlank c

theorem blanks_nil : Blanks [] := nofun

variable {fuel : Nat} {b cs r : List Char} {v : Raw}

theorem skipBlanks_append (h : Blanks b) (cs : List Char) :
    Raw.skipBlanks (b ++ cs) = Raw.skipBlanks cs := List.dropWhile_append_of_pos h

theorem skipBlanks_skipBlanks (cs : List Char) :
    Raw.skipBlanks (Raw.skipBlanks cs) = Raw.skipBlanks cs := List.dropWhile_idempotent _ cs

theorem skipBlanks_eq_nil_iff : Raw.skipBlanks cs = [] ↔ Blanks cs := List.dropWhile_eq_nil_iff

theorem exists_blanks (cs : List Char) : ∃ b, Blanks b ∧ cs = b ++ Raw.skipBlanks cs :=
  ⟨cs.takeWhile Raw.isBlank, fun _ h => List.mem_takeWhile_imp h, List.takeWhile_append_dropWhile.symm⟩

theorem Blanks.delimits {rest : List Char} (hb : Blanks b) (h : Delimits rest) : Delimits (b ++ rest) := by
  cases b with
  | nil => exact h
  | cons c b =>
    have hc : c = ' ' ∨ c = '\t' ∨ c = '\n' ∨ c = '\r' := by
      simpa [Raw.isBlank, or_assoc] using hb c List.mem_cons_self
    exact delimits_cons (by simp [delimiters, hc]) _

theorem delimits_of_skipBlanks {c : Char} {t : List Char} (h : Raw.skipBlanks r = c :: t)
    (hc : c ∈ delimiters) : Delimits r := by
  obtain ⟨b, hb, hr⟩ := exists_blanks r
  rw [hr, h]
  exact hb.delimits (delimits_cons hc t)

theorem read_skipBlanks (fuel : Nat) (cs : List Char) :
    Raw.read fuel (Raw.skipBlanks cs) = Raw.read fuel cs := by
  cases fuel with
  | zero => rfl
  | succ fuel => simp only [Raw.read, skipBlanks_skipBlanks]

theorem readItems_skipBlanks (fuel : Nat) (cs : List Char) :
    Raw.readItems fuel (Raw.skipBlanks cs) = Raw.readItems fuel cs := by
  cases fuel with
  | zero => rfl
  | succ fuel => simp only [Raw.readItems, read_skipBlanks]

theorem readMembers_skipBlanks (fuel : Nat) (cs : List Char) :
    Raw.readMembers fuel (Raw.skipBlanks cs) = Raw.readMembers fuel cs := by
  cases fuel with
  | zero => rfl
  | succ fuel => simp only [Raw.readMembers, skipBlanks_skipBlanks]

/-- Blanks before a value are passed over. -/
theorem read_blanks (h : Blanks b) (fuel : Nat) (cs : List Char) :
    Raw.read fuel (b ++ cs) = Raw.read fuel cs := by
  rw [← read_skipBlanks, skipBlanks_append h, read_skipBlanks]

/-! ### Readers -/

variable {α : Type}

/-- A reader of one thing: with fuel, from the front of the characters. -/
abbrev Reader (α : Type) := Nat → List Char → Option (α × List Char)

/-- Characters that are read as one thing, whatever comes after them; blanks may be left over. There is fuel for
them if there are two units for a character: one for a value, and one for the item or member that it is. -/
def Reader.Takes (read : Reader α) (cs : List Char) (a : α) : Prop :=
  ∀ rest, Delimits rest → ∀ fuel, 2 * cs.length ≤ fuel + 1 →
    ∃ r, read (fuel + 1) (cs ++ rest) = some (a, r) ∧ Raw.skipBlanks r = Raw.skipBlanks rest

/-- With this fuel, what is read off the front is read so whatever comes after it. -/
def Reader.Local (read : Reader α) (fuel : Nat) : Prop :=
  ∀ cs a r, read fuel cs = some (a, r) → Delimits r → ∃ x, cs = x ++ r ∧ read.Takes x a

/-- A reader of things with commas between them, up to what closes them. -/
structure Reader.Lists (read : Reader α) (close : Char) (list : Reader (List α)) : Prop where
  zero (cs : List Char) : list 0 cs = none
  succ_iff {fuel : Nat} {cs r : List Char} {as : List α} :
    list (fuel + 1) cs = some (as, r) ↔ ∃ a r', read fuel cs = some (a, r') ∧
      (Raw.skipBlanks r' = close :: r ∧ [a] = as ∨
        ∃ t as', Raw.skipBlanks r' = ',' :: t ∧ list fuel t = some (as', r) ∧ a :: as' = as)

variable {read : Reader α} {close : Char} {list : Reader (List α)}

theorem Reader.Takes.append_blanks {a : α} (h : read.Takes cs a) (hb : Blanks b) :
    read.Takes (cs ++ b) a := by
  intro rest hrest fuel hfuel
  rw [List.length_append] at hfuel
  obtain ⟨r, hr, hskip⟩ := h (b ++ rest) (hb.delimits hrest) fuel (by omega)
  rw [List.append_assoc, hr]
  exact ⟨r, rfl, by rw [hskip, skipBlanks_append hb]⟩

/-- What is read as a list is made of parts that are read as its things, with commas between them. -/
theorem Reader.Lists.exists_parts (h : read.Lists close list) (hclose : close ∈ delimiters)
    (hlocal : ∀ f < fuel, read.Local f) {as : List α} (hread : list fuel cs = some (as, r)) :
    ∃ parts, parts ≠ [] ∧ cs = [','].intercalate parts ++ close :: r ∧ List.Forall₂ read.Takes parts as := by
  have hpart {f : Nat} (hf : f < fuel) {cs r t : List Char} {a : α} {c : Char}
      (ha : read f cs = some (a, r)) (hr : Raw.skipBlanks r = c :: t) (hc : c ∈ delimiters) :
      ∃ part, cs = part ++ c :: t ∧ read.Takes part a := by
    obtain ⟨x, rfl, hx⟩ := hlocal f hf cs a r ha (delimits_of_skipBlanks hr hc)
    obtain ⟨b, hb, hbr⟩ := exists_blanks r
    rw [hr] at hbr
    exact ⟨x ++ b, by rw [hbr, List.append_assoc], hx.append_blanks hb⟩
  induction fuel generalizing cs as with
  | zero => simp [h.zero] at hread
  | succ fuel ih =>
    obtain ⟨a, r', ha, ⟨hr, rfl⟩ | ⟨t, as', hr, hrest, rfl⟩⟩ := h.succ_iff.1 hread
    · obtain ⟨part, rfl, hp⟩ := hpart (Nat.lt_succ_self fuel) ha hr hclose
      exact ⟨[part], by simp, by simp, by simpa using hp⟩
    · obtain ⟨part, rfl, hp⟩ := hpart (Nat.lt_succ_self fuel) ha hr (by decide)
      obtain ⟨parts, hne, rfl, hparts⟩ := ih (fun f hf => hlocal f (by omega)) hrest
        fun hf => hpart (by omega)
      refine ⟨part :: parts, by simp, ?_, .cons hp hparts⟩
      rw [List.intercalate_cons_of_ne_nil hne]
      simp

/-- Parts that are read as things are read as the list of them. -/
theorem Reader.Lists.of_parts (h : read.Lists close list) (hclose : close ∈ [']', '\x7d'])
    {parts : List (List Char)} {as : List α} (hne : parts ≠ []) (hparts : List.Forall₂ read.Takes parts as)
    (rest : List Char) (fuel : Nat) (hfuel : 2 * ([','].intercalate parts).length < fuel) :
    list (fuel + 1) ([','].intercalate parts ++ close :: rest) = some (as, rest) := by
  have hstop : Delimits (close :: rest) ∧ Raw.skipBlanks (close :: rest) = close :: rest := by
    fin_cases hclose <;> exact ⟨delimits_cons (by decide) rest, rfl⟩
  induction hparts generalizing fuel with
  | nil => exact absurd rfl hne
  | @cons part a parts as hpart hparts ih =>
    obtain ⟨fuel, rfl⟩ : ∃ f, fuel = f + 1 := ⟨fuel - 1, by omega⟩
    by_cases hnil : parts = []
    · subst hnil
      cases hparts
      rw [List.intercalate_singleton] at hfuel ⊢
      obtain ⟨r, hr, hskip⟩ := hpart _ hstop.1 fuel (by omega)
      exact h.succ_iff.2 ⟨a, r, hr, .inl ⟨hskip.trans hstop.2, rfl⟩⟩
    · rw [List.intercalate_cons_of_ne_nil hnil] at hfuel ⊢
      simp only [List.length_append, List.length_cons, List.length_nil] at hfuel
      have hcomma : Delimits (',' :: ([','].intercalate parts ++ close :: rest)) :=
        delimits_cons (by decide) _
      obtain ⟨r, hr, hskip⟩ := hpart _ hcomma fuel (by omega)
      exact h.succ_iff.2 ⟨a, r, by simpa using hr, .inr ⟨_, as, hskip, ih hnil fuel (by omega), rfl⟩⟩

/-! ### Items and members -/

theorem readItems_lists : Reader.Lists Raw.read ']' Raw.readItems where
  zero _ := rfl
  succ_iff {fuel cs r as} := by
    simp only [Raw.readItems, Option.bind_eq_bind]
    rw [Option.bind_eq_some_iff, Prod.exists]
    refine exists_congr fun a => exists_congr fun r' => and_congr_right fun _ => ?_
    split <;> simp_all [Option.bind_eq_some_iff, and_comm]

/-- A name, a colon and a value. -/
def readMember : Reader (Quoted × Raw) := fun fuel cs =>
  match Raw.skipBlanks cs with
  | '"' :: r => do
    let (name, r) ← Quoted.read r
    match Raw.skipBlanks r with
    | ':' :: r => do
      let (v, r) ← Raw.read fuel r
      return ((name, v), r)
    | _ => none
  | _ => none

theorem readMember_eq_some_iff {m : Quoted × Raw} :
    readMember fuel cs = some (m, r) ↔ ∃ t t' t'', Raw.skipBlanks cs = '"' :: t ∧
      Quoted.read t = some (m.1, t') ∧ Raw.skipBlanks t' = ':' :: t'' ∧ Raw.read fuel t'' = some (m.2, r) := by
  constructor
  · intro h
    rw [readMember] at h
    split at h
    · next t ht =>
      obtain ⟨⟨q, t'⟩, hq, h⟩ := Option.bind_eq_some_iff.1 h
      dsimp only at h
      split at h
      · next t'' ht' =>
        obtain ⟨⟨v, r'⟩, hv, h⟩ := Option.bind_eq_some_iff.1 h
        cases h
        exact ⟨t, t', t'', ht, hq, ht', hv⟩
      · cases h
    · cases h
  · rintro ⟨t, t', t'', ht, hq, ht', hv⟩
    simp [readMember, ht, hq, ht', hv]

theorem readMembers_succ (fuel : Nat) (cs : List Char) :
    Raw.readMembers (fuel + 1) cs = (readMember fuel cs).bind fun p =>
      match Raw.skipBlanks p.2 with
      | ',' :: r => (Raw.readMembers fuel r).bind fun q => some (p.1 :: q.1, q.2)
      | '\x7d' :: r => some ([p.1], r)
      | _ => none := by
  simp only [Raw.readMembers, readMember, Option.bind_eq_bind]
  rcases Raw.skipBlanks cs with _ | ⟨c, t⟩
  · rfl
  · by_cases hquote : c = '"'
    · subst hquote
      cases hq : Quoted.read t with
      | none => simp [hq]
      | some q =>
        simp only [hq, Option.bind_some]
        rcases Raw.skipBlanks q.2 with _ | ⟨c, t⟩
        · rfl
        · by_cases hcolon : c = ':'
          · subst hcolon
            cases hv : Raw.read fuel t with
            | none => simp [hv]
            | some p =>
              simp only [hv, Option.bind_some]
              rfl
          · simp [hcolon]
    · simp [hquote]

theorem readMembers_lists : Reader.Lists readMember '\x7d' Raw.readMembers where
  zero _ := rfl
  succ_iff {fuel cs r as} := by
    rw [readMembers_succ, Option.bind_eq_some_iff, Prod.exists]
    refine exists_congr fun a => exists_congr fun r' => and_congr_right fun _ => ?_
    split <;> simp_all [Option.bind_eq_some_iff, and_comm]

theorem opens_of_read {p : Raw × List Char} (h : Raw.read fuel cs = some p) :
    ∃ c t, Raw.skipBlanks cs = c :: t ∧ c ≠ ']' := by
  cases fuel with
  | zero => cases h
  | succ fuel =>
    cases hcs : Raw.skipBlanks cs with
    | nil => simp [Raw.read, hcs, Numeral.read, Numeral.readWhole, Numeral.digits] at h
    | cons c t =>
      refine ⟨c, t, rfl, ?_⟩
      rintro rfl
      simp [Raw.read, hcs, Numeral.read, Numeral.readWhole, Numeral.digits, Numeral.digit?] at h

theorem opens_of_readItems {items : List Raw} (h : Raw.readItems fuel cs = some (items, r)) :
    ∃ c t, Raw.skipBlanks cs = c :: t ∧ c ≠ ']' := by
  cases fuel with
  | zero => cases h
  | succ fuel =>
    obtain ⟨v, r', hv, -⟩ := readItems_lists.succ_iff.1 h
    exact opens_of_read hv

theorem opens_of_readMembers {members : List (Quoted × Raw)}
    (h : Raw.readMembers fuel cs = some (members, r)) : ∃ t, Raw.skipBlanks cs = '"' :: t := by
  cases fuel with
  | zero => cases h
  | succ fuel =>
    obtain ⟨m, r', hm, -⟩ := readMembers_lists.succ_iff.1 h
    obtain ⟨t, -, -, ht, -⟩ := readMember_eq_some_iff.1 hm
    exact ⟨t, ht⟩

theorem read_array {items : List Raw} (h : Raw.readItems fuel cs = some (items, r)) :
    Raw.read (fuel + 1) ('[' :: cs) = some (.array items, r) := by
  obtain ⟨c, t, hopen, hc⟩ := opens_of_readItems h
  have hstart : Raw.skipBlanks ('[' :: cs) = '[' :: cs := rfl
  rw [← readItems_skipBlanks, hopen] at h
  simp only [Raw.read, hstart, hopen]
  split
  · next heq => exact absurd (List.cons.inj heq).1 hc
  · rw [h]
    rfl

theorem read_object {members : List (Quoted × Raw)} (h : Raw.readMembers fuel cs = some (members, r)) :
    Raw.read (fuel + 1) ('\x7b' :: cs) = some (.object members, r) := by
  obtain ⟨t, hopen⟩ := opens_of_readMembers h
  have hstart : Raw.skipBlanks ('\x7b' :: cs) = '\x7b' :: cs := rfl
  rw [← readMembers_skipBlanks, hopen] at h
  simp [Raw.read, hstart, hopen, h]

/-! ### What characters are read as -/

/-- Characters that are read as a tree. -/
abbrev Reads : List Char → Raw → Prop := Reader.Takes Raw.read

/-- Characters that are read as a member. -/
abbrev ReadsMember : List Char → Quoted × Raw → Prop := Reader.Takes readMember

theorem reads_null : Reads ['n', 'u', 'l', 'l'] .null :=
  fun rest _ fuel _ => ⟨rest, by simp [Raw.read, Raw.skipBlanks, Raw.isBlank], rfl⟩

theorem reads_true : Reads ['t', 'r', 'u', 'e'] (.bool true) :=
  fun rest _ fuel _ => ⟨rest, by simp [Raw.read, Raw.skipBlanks, Raw.isBlank], rfl⟩

theorem reads_false : Reads ['f', 'a', 'l', 's', 'e'] (.bool false) :=
  fun rest _ fuel _ => ⟨rest, by simp [Raw.read, Raw.skipBlanks, Raw.isBlank], rfl⟩

theorem reads_number {n : Numeral} (h : Numeral.read cs = some (n, [])) : Reads cs (.number n) := by
  intro rest hrest fuel _
  have hread : Numeral.read (cs ++ rest) = some (n, rest) := by
    rw [Numeral.read_ends hrest, h]
    rfl
  obtain ⟨c, t, hopen, hc⟩ := Numeral.opens_of_read hread
  rw [hopen] at hread ⊢
  exact ⟨rest, by fin_cases hc <;> simp [Raw.read, Raw.skipBlanks, Raw.isBlank, hread], rfl⟩

theorem reads_text {k : List Char} {q : Quoted} (h : Quoted.Closes k q) : Reads ('"' :: k) (.text q) :=
  fun rest _ fuel _ => ⟨rest, by simp [Raw.read, Raw.skipBlanks, Raw.isBlank, h rest], rfl⟩

theorem reads_noItems (hb : Blanks b) : Reads ('[' :: (b ++ [']'])) (.array []) := by
  intro rest _ fuel _
  have hstart (cs : List Char) : Raw.skipBlanks ('[' :: cs) = '[' :: cs := rfl
  have hskip : Raw.skipBlanks (b ++ ']' :: rest) = ']' :: rest := skipBlanks_append hb _
  exact ⟨rest, by simp [Raw.read, hstart, hskip], rfl⟩

theorem reads_noMembers (hb : Blanks b) : Reads ('\x7b' :: (b ++ ['\x7d'])) (.object []) := by
  intro rest _ fuel _
  have hstart (cs : List Char) : Raw.skipBlanks ('\x7b' :: cs) = '\x7b' :: cs := rfl
  have hskip : Raw.skipBlanks (b ++ '\x7d' :: rest) = '\x7d' :: rest := skipBlanks_append hb _
  exact ⟨rest, by simp [Raw.read, hstart, hskip], rfl⟩

theorem reads_array {parts : List (List Char)} {items : List Raw} (hne : parts ≠ [])
    (h : List.Forall₂ Reads parts items) : Reads ('[' :: ([','].intercalate parts ++ [']'])) (.array items) := by
  intro rest _ fuel hfuel
  simp only [List.length_cons, List.length_append, List.length_nil] at hfuel
  obtain ⟨fuel, rfl⟩ : ∃ f, fuel = f + 1 := ⟨fuel - 1, by omega⟩
  have hitems := readItems_lists.of_parts (by decide) hne h rest fuel (by omega)
  exact ⟨rest, by simpa using read_array hitems, rfl⟩

theorem reads_object {parts : List (List Char)} {members : List (Quoted × Raw)} (hne : parts ≠ [])
    (h : List.Forall₂ ReadsMember parts members) :
    Reads ('\x7b' :: ([','].intercalate parts ++ ['\x7d'])) (.object members) := by
  intro rest _ fuel hfuel
  simp only [List.length_cons, List.length_append, List.length_nil] at hfuel
  obtain ⟨fuel, rfl⟩ : ∃ f, fuel = f + 1 := ⟨fuel - 1, by omega⟩
  have hmembers := readMembers_lists.of_parts (by decide) hne h rest fuel (by omega)
  exact ⟨rest, by simpa using read_object hmembers, rfl⟩

theorem Reads.after_blanks (h : Reads cs v) (hb : Blanks b) : Reads (b ++ cs) v := by
  intro rest hrest fuel hfuel
  rw [List.length_append] at hfuel
  rw [List.append_assoc, read_blanks hb]
  exact h rest hrest fuel (by omega)

theorem readsMember {c k : List Char} {q : Quoted} (hb : Blanks b) (hk : Quoted.Closes k q) (hc : Blanks c)
    (h : Reads cs v) : ReadsMember (b ++ '"' :: (k ++ (c ++ ':' :: cs))) (q, v) := by
  intro rest hrest fuel hfuel
  simp only [List.length_cons, List.length_append] at hfuel
  obtain ⟨r, hr, hskip⟩ := h rest hrest fuel (by omega)
  refine ⟨r, readMember_eq_some_iff.2 ⟨_, c ++ ':' :: (cs ++ rest), _, ?_, hk _, ?_, hr⟩, hskip⟩
  · simp only [List.append_assoc, List.cons_append]
    exact skipBlanks_append hb _
  · exact skipBlanks_append hc _

/-! ### Reading off the front -/

theorem readMember_local (h : Reader.Local Raw.read fuel) : Reader.Local readMember fuel := by
  intro cs m r hm hr
  obtain ⟨t, t', t'', ht, hq, ht', hv⟩ := readMember_eq_some_iff.1 hm
  obtain ⟨b, hb, hcs⟩ := exists_blanks cs
  obtain ⟨k, rfl, hk⟩ := Quoted.exists_of_read hq
  obtain ⟨c, hc, hcolon⟩ := exists_blanks t'
  obtain ⟨x, rfl, hx⟩ := h t'' m.2 r hv hr
  rw [ht, hcolon, ht'] at hcs
  exact ⟨_, by simp [hcs], readsMember hb hk hc hx⟩

/-- A value is read off the front as if nothing else could come after it. -/
theorem read_local (fuel : Nat) : Reader.Local Raw.read fuel := by
  induction fuel using Nat.strongRecOn with
  | ind fuel ih =>
  intro cs v r h hr
  obtain ⟨b, hb, hcs⟩ := exists_blanks cs
  suffices ∃ x, Raw.skipBlanks cs = x ++ r ∧ Reads x v by
    obtain ⟨x, hx, hreads⟩ := this
    exact ⟨b ++ x, by rw [hcs, hx, List.append_assoc], hreads.after_blanks hb⟩
  cases fuel with
  | zero => cases h
  | succ fuel =>
    rw [Raw.read] at h
    split at h
    · next hcs =>
      cases h
      exact ⟨_, hcs, reads_null⟩
    · next hcs =>
      cases h
      exact ⟨_, hcs, reads_true⟩
    · next hcs =>
      cases h
      exact ⟨_, hcs, reads_false⟩
    · next t ht =>
      obtain ⟨⟨q, r'⟩, hq, h⟩ := Option.bind_eq_some_iff.1 h
      cases h
      obtain ⟨k, rfl, hk⟩ := Quoted.exists_of_read hq
      exact ⟨'"' :: k, ht, reads_text hk⟩
    · next t ht =>
      rw [ht]
      split at h
      · next r' hskip =>
        cases h
        obtain ⟨c, hc, hblanks⟩ := exists_blanks t
        rw [hskip] at hblanks
        exact ⟨_, by simp [hblanks], reads_noItems hc⟩
      · obtain ⟨⟨items, r'⟩, hitems, h⟩ := Option.bind_eq_some_iff.1 h
        cases h
        rw [readItems_skipBlanks] at hitems
        obtain ⟨parts, hne, rfl, hparts⟩ :=
          readItems_lists.exists_parts (by decide) (fun f hf => ih f (by omega)) hitems
        exact ⟨_, by simp, reads_array hne hparts⟩
    · next t ht =>
      rw [ht]
      split at h
      · next r' hskip =>
        cases h
        obtain ⟨c, hc, hblanks⟩ := exists_blanks t
        rw [hskip] at hblanks
        exact ⟨_, by simp [hblanks], reads_noMembers hc⟩
      · obtain ⟨⟨members, r'⟩, hmembers, h⟩ := Option.bind_eq_some_iff.1 h
        cases h
        rw [readMembers_skipBlanks] at hmembers
        obtain ⟨parts, hne, rfl, hparts⟩ :=
          readMembers_lists.exists_parts (by decide) (fun f hf => readMember_local (ih f (by omega))) hmembers
        exact ⟨_, by simp, reads_object hne hparts⟩
    · obtain ⟨⟨n, r'⟩, hn, h⟩ := Option.bind_eq_some_iff.1 h
      cases h
      obtain ⟨y, hy, hread⟩ := Numeral.exists_of_read hr hn
      exact ⟨y, hy, reads_number hread⟩

/-- A text is read as a tree just if its characters are, whatever could come after them. -/
theorem rawOfText?_eq_some_iff {s : String} : Raw.ofText? s = some v ↔ Reads s.toList v := by
  rw [Raw.ofText?]
  constructor
  · intro h
    split at h
    · next w r hread =>
      split at h
      · next hr =>
        cases h
        have hblanks : Blanks r := skipBlanks_eq_nil_iff.1 (List.isEmpty_iff.1 hr)
        have hdelimits : Delimits r := by simpa using hblanks.delimits delimits_nil
        obtain ⟨x, hx, hreads⟩ := read_local _ _ _ _ hread hdelimits
        rw [hx]
        exact hreads.append_blanks hblanks
      · cases h
    · cases h
  · intro h
    obtain ⟨r, hr, hskip⟩ := h [] delimits_nil (2 * s.toList.length + 1) (by omega)
    have hempty : Raw.skipBlanks r = [] := hskip
    rw [List.append_nil] at hr
    simp [hr, hempty]

end StepTrace.Json
