import Mathlib.Tactic.FinCases
import StepTrace.Json.Text
import StepTrace.Json.Raw

/-!
Numbers are read up to what ends a value, and no further. An integer of 64 bits that is written comes back.
-/
namespace StepTrace.Json

/-- The characters that end an item, an array or an object, and blanks. -/
abbrev delimiters : List Char := [',', ']', '\x7d', ' ', '\t', '\n', '\r']

/-- What may come after a value: nothing, a blank, or what ends an item, an array or an object. -/
def Delimits (rest : List Char) : Prop := ∀ c ∈ rest.head?, c ∈ delimiters

theorem delimits_nil : Delimits [] := nofun

theorem delimits_cons {c : Char} (h : c ∈ delimiters) (r : List Char) : Delimits (c :: r) := by
  intro d hd
  obtain rfl := Option.some.inj hd
  exact h

theorem Delimits.eq_nil_or_cons {rest : List Char} (h : Delimits rest) :
    rest = [] ∨ ∃ c r, rest = c :: r ∧ c ∈ delimiters := by
  cases rest with
  | nil => exact .inl rfl
  | cons c r => exact .inr ⟨c, r, rfl, h c rfl⟩

/-- A reader that gives the same before a rest as it gives at the end of the text. -/
def EndsBefore {α : Type} (rest : List Char) (read : List Char → Option (α × List Char)) : Prop :=
  ∀ cs, read (cs ++ rest) = (read cs).map fun p => (p.1, p.2 ++ rest)

theorem EndsBefore.bind {α β : Type} {rest : List Char} {read : List Char → Option (α × List Char)}
    {next : α → List Char → Option (β × List Char)} (h : EndsBefore rest read)
    (hnext : ∀ a, EndsBefore rest (next a)) :
    EndsBefore rest fun cs => (read cs).bind fun p => next p.1 p.2 := by
  intro cs
  simp only [h cs]
  cases read cs with
  | none => rfl
  | some p => exact hnext p.1 p.2

theorem EndsBefore.pure {α : Type} (rest : List Char) (a : α) :
    EndsBefore rest fun cs => some (a, cs) := fun _ => rfl

namespace Numeral

variable {rest : List Char}

/-! ### Where a number ends -/

theorem digits_append (h : Delimits rest) (cs : List Char) :
    digits (cs ++ rest) = ((digits cs).1, (digits cs).2 ++ rest) := by
  induction cs with
  | nil =>
    obtain rfl | ⟨c, r, rfl, hc⟩ := h.eq_nil_or_cons
    · rfl
    · fin_cases hc <;> rfl
  | cons c cs ih =>
    simp only [List.cons_append, digits]
    cases digit? c with
    | none => rfl
    | some d => simp [ih]

theorem readWhole_ends (h : Delimits rest) : EndsBefore rest readWhole := by
  intro cs
  rw [readWhole, readWhole, digits_append h]
  obtain ⟨ds, r⟩ := digits cs
  rcases ds with _ | ⟨_ | d, _ | ⟨e, ds⟩⟩ <;> rfl

theorem readFraction_ends (h : Delimits rest) : EndsBefore rest readFraction := by
  intro cs
  cases cs with
  | nil =>
    obtain rfl | ⟨c, r, rfl, hc⟩ := h.eq_nil_or_cons
    · rfl
    · fin_cases hc <;> rfl
  | cons c cs =>
    by_cases hc : c = '.'
    · subst hc
      simp only [List.cons_append, readFraction, digits_append h]
      obtain ⟨ds, r⟩ := digits cs
      cases ds <;> rfl
    · simp [readFraction, hc]

/-- An exponent after its sign. -/
def signedPower (negative : Bool) (cs : List Char) : Option (Option (Bool × List Nat) × List Char) :=
  match digits cs with
  | ([], _) => none
  | (ds, r) => some (some (negative, ds), r)

theorem readPower_cons {c : Char} (hminus : c ≠ '-') (hplus : c ≠ '+') (cs : List Char) :
    readPower (c :: cs) = signedPower false (c :: cs) := by
  simp [readPower, hminus, hplus]
  rfl

theorem signedPower_ends (h : Delimits rest) (negative : Bool) :
    EndsBefore rest (signedPower negative) := by
  intro cs
  simp only [signedPower, digits_append h]
  obtain ⟨ds, r⟩ := digits cs
  cases ds <;> rfl

theorem readPower_ends (h : Delimits rest) : EndsBefore rest readPower := by
  intro cs
  cases cs with
  | nil =>
    obtain rfl | ⟨c, r, rfl, hc⟩ := h.eq_nil_or_cons
    · rfl
    · fin_cases hc <;> rfl
  | cons c cs =>
    by_cases hminus : c = '-'
    · subst hminus
      exact signedPower_ends h true cs
    · by_cases hplus : c = '+'
      · subst hplus
        exact signedPower_ends h false cs
      · rw [List.cons_append, readPower_cons hminus hplus, readPower_cons hminus hplus]
        exact signedPower_ends h false (c :: cs)

theorem readExponent_ends (h : Delimits rest) : EndsBefore rest readExponent := by
  intro cs
  cases cs with
  | nil =>
    obtain rfl | ⟨c, r, rfl, hc⟩ := h.eq_nil_or_cons
    · rfl
    · fin_cases hc <;> rfl
  | cons c cs =>
    by_cases hsmall : c = 'e'
    · subst hsmall
      exact readPower_ends h cs
    · by_cases hlarge : c = 'E'
      · subst hlarge
        exact readPower_ends h cs
      · simp [readExponent, hsmall, hlarge]

/-- A number is read as if nothing came after it. -/
theorem read_ends (h : Delimits rest) : EndsBefore rest read := by
  have hsigned (negative : Bool) := (readWhole_ends h).bind fun whole =>
    (readFraction_ends h).bind fun fraction => (readExponent_ends h).bind fun exponent =>
      EndsBefore.pure rest (⟨negative, whole, fraction, exponent⟩ : Numeral)
  intro cs
  cases cs with
  | nil =>
    obtain rfl | ⟨c, r, rfl, hc⟩ := h.eq_nil_or_cons
    · rfl
    · fin_cases hc <;> rfl
  | cons c cs =>
    by_cases hminus : c = '-'
    · subst hminus
      exact hsigned true cs
    · simpa [read, hminus] using hsigned false (c :: cs)

/-! ### The characters of a number -/

theorem mem_of_digit? {c : Char} {d : Nat} (h : digit? c = some d) :
    c ∈ ['0', '1', '2', '3', '4', '5', '6', '7', '8', '9'] := by
  have hten : ∀ n < 10, Char.ofNat (48 + n) ∈
      ['0', '1', '2', '3', '4', '5', '6', '7', '8', '9'] := by decide
  unfold digit? at h
  split at h
  · next hc =>
    have hlow : 48 ≤ c.toNat := hc.1
    have hhigh : c.toNat ≤ 57 := hc.2
    have hmem := hten (c.toNat - 48) (by omega)
    rwa [Nat.add_sub_cancel' hlow, Char.ofNat_toNat] at hmem
  · cases h

/-- A number starts with its sign or with a digit. -/
theorem opens_of_read {cs r : List Char} {n : Numeral} (h : read cs = some (n, r)) :
    ∃ c t, cs = c :: t ∧ c ∈ ['-', '0', '1', '2', '3', '4', '5', '6', '7', '8', '9'] := by
  cases cs with
  | nil => cases h
  | cons c cs =>
    refine ⟨c, cs, rfl, ?_⟩
    by_cases hminus : c = '-'
    · simp [hminus]
    · cases hd : digit? c with
      | some d => exact List.mem_cons_of_mem _ (mem_of_digit? hd)
      | none => simp [read, hminus, readWhole, digits, hd] at h

/-- What is left of a text after characters none of which is a line feed. -/
def IsRest (r cs : List Char) : Prop := ∃ y, cs = y ++ r ∧ '\n' ∉ y

theorem IsRest.refl (cs : List Char) : IsRest cs cs := ⟨[], rfl, List.not_mem_nil⟩

theorem IsRest.cons {c : Char} {r cs : List Char} (h : IsRest r cs) (hc : c ≠ '\n') : IsRest r (c :: cs) := by
  obtain ⟨y, rfl, hy⟩ := h
  exact ⟨c :: y, rfl, by simp [hy, hc.symm]⟩

theorem IsRest.trans {r r' cs : List Char} (h : IsRest r r') (h' : IsRest r' cs) : IsRest r cs := by
  obtain ⟨y, rfl, hy⟩ := h
  obtain ⟨y', rfl, hy'⟩ := h'
  exact ⟨y' ++ y, by simp, by simp [hy, hy']⟩

/-- A reader that takes characters off the front, no line feed among them. -/
def LeavesRest {α : Type} (read : List Char → Option (α × List Char)) : Prop :=
  ∀ cs p, read cs = some p → IsRest p.2 cs

theorem LeavesRest.bind {α β : Type} {read : List Char → Option (α × List Char)}
    {next : α → List Char → Option (β × List Char)} (h : LeavesRest read)
    (hnext : ∀ a, LeavesRest (next a)) :
    LeavesRest fun cs => (read cs).bind fun p => next p.1 p.2 := by
  intro cs q hq
  obtain ⟨p, hp, hq⟩ := Option.bind_eq_some_iff.1 hq
  exact (hnext p.1 p.2 q hq).trans (h cs p hp)

theorem LeavesRest.pure {α : Type} (a : α) : LeavesRest fun cs => some (a, cs) := by
  intro cs p hp
  cases hp
  exact .refl cs

theorem isRest_digits (cs : List Char) : IsRest (digits cs).2 cs := by
  induction cs with
  | nil => exact .refl []
  | cons c cs ih =>
    rw [digits]
    cases hd : digit? c with
    | none => exact .refl (c :: cs)
    | some d =>
      refine ih.cons ?_
      rintro rfl
      cases hd

theorem readWhole_leaves : LeavesRest readWhole := by
  intro cs p hp
  have hr := isRest_digits cs
  unfold readWhole at hp
  split at hp
  · cases hp
  · cases hp
  · next h =>
    cases hp
    rwa [h] at hr

theorem signedPower_leaves (negative : Bool) : LeavesRest (signedPower negative) := by
  intro cs p hp
  have hr := isRest_digits cs
  unfold signedPower at hp
  split at hp
  · cases hp
  · next h =>
    cases hp
    rwa [h] at hr

theorem readFraction_leaves : LeavesRest readFraction := by
  intro cs p hp
  unfold readFraction at hp
  split at hp
  · next r =>
    have hr := (isRest_digits r).cons (c := '.') (by decide)
    split at hp
    · cases hp
    · next h =>
      cases hp
      rwa [h] at hr
  · cases hp
    exact .refl cs

theorem readPower_leaves : LeavesRest readPower := by
  intro cs p hp
  cases cs with
  | nil => cases hp
  | cons c cs =>
    by_cases hminus : c = '-'
    · subst hminus
      exact (signedPower_leaves true cs p hp).cons (by decide)
    · by_cases hplus : c = '+'
      · subst hplus
        exact (signedPower_leaves false cs p hp).cons (by decide)
      · rw [readPower_cons hminus hplus] at hp
        exact signedPower_leaves false (c :: cs) p hp

theorem readExponent_leaves : LeavesRest readExponent := by
  intro cs p hp
  unfold readExponent at hp
  split at hp
  · exact (readPower_leaves _ p hp).cons (by decide)
  · exact (readPower_leaves _ p hp).cons (by decide)
  · cases hp
    exact .refl cs

/-- A number is taken off the front, and no line feed is part of it. -/
theorem read_leaves : LeavesRest read := by
  have hsigned (negative : Bool) := readWhole_leaves.bind fun whole =>
    readFraction_leaves.bind fun fraction => readExponent_leaves.bind fun exponent =>
      LeavesRest.pure (⟨negative, whole, fraction, exponent⟩ : Numeral)
  intro cs p hp
  cases cs with
  | nil => cases hp
  | cons c cs =>
    by_cases hminus : c = '-'
    · subst hminus
      exact (hsigned true cs p hp).cons (by decide)
    · refine hsigned false (c :: cs) p ?_
      simpa [read, hminus] using hp

/-- No line feed is part of a number. -/
theorem feed_not_mem_of_read {cs : List Char} {n : Numeral} (h : read cs = some (n, [])) : '\n' ∉ cs := by
  obtain ⟨y, rfl, hy⟩ := read_leaves cs _ h
  simpa using hy

/-- A number before a delimiter is read from its own characters. -/
theorem exists_of_read {n : Numeral} (hrest : Delimits rest) {cs : List Char} (h : read cs = some (n, rest)) :
    ∃ y, cs = y ++ rest ∧ read y = some (n, []) := by
  obtain ⟨y, rfl, -⟩ := read_leaves cs _ h
  refine ⟨y, rfl, ?_⟩
  rw [read_ends hrest, Option.map_eq_some_iff] at h
  obtain ⟨⟨m, r⟩, hread, heq⟩ := h
  obtain ⟨rfl, rfl⟩ : m = n ∧ r = [] := by simpa using heq
  exact hread

/-! ### Integers -/

/-- What a list of digits stands for after a number. -/
def valueFrom (n : Nat) (ds : List Nat) : Nat := ds.foldl (fun n d => n * 10 + d) n

theorem le_valueFrom (n : Nat) (ds : List Nat) : n ≤ valueFrom n ds := by
  induction ds generalizing n with
  | nil => exact Nat.le_refl n
  | cons d ds ih => exact Nat.le_trans (by omega) (ih (n * 10 + d))

/-- A number of 64 bits takes all its digits. -/
theorem absorb_eq {n : Nat} {ds : List Nat} (h : valueFrom n ds < Nat.pow 2 64) :
    absorb n ds = (valueFrom n ds, []) := by
  induction ds generalizing n with
  | nil => rfl
  | cons d ds ih =>
    have hd : n * 10 + d < Nat.pow 2 64 := Nat.lt_of_le_of_lt (le_valueFrom _ ds) h
    rw [absorb, if_pos hd]
    exact ih h

/-- The digits of a number as it is written. -/
def digitsOf (n : Nat) : List Nat := (Decimal.digitChars n).map fun c => c.toNat - '0'.toNat

theorem digits_digitChars (n : Nat) : digits (Decimal.digitChars n) = (digitsOf n, []) := by
  have hall : ∀ c ∈ Decimal.digitChars n, c.isDigit := fun c hc =>
    Nat.isDigit_of_mem_toDigits (by decide) (by decide) hc
  rw [digitsOf]
  generalize Decimal.digitChars n = cs at hall
  induction cs with
  | nil => rfl
  | cons c cs ih =>
    have hc : '0' ≤ c ∧ c ≤ '9' := by simpa [Char.isDigit, Char.le_def] using hall c List.mem_cons_self
    have hd : digit? c = some (c.toNat - '0'.toNat) := if_pos hc
    simp [digits, hd, ih fun d hm => hall d (List.mem_cons_of_mem c hm)]

theorem valueFrom_digitsOf (n : Nat) : valueFrom 0 (digitsOf n) = n := by
  have h := Nat.ofDigitChars_ten_toDigits (n := n)
  rw [Nat.ofDigitChars_eq_foldl] at h
  rw [valueFrom, digitsOf, Decimal.digitChars, List.foldl_map]
  simpa [Nat.mul_comm] using h

/-- Only zero is written with a zero in front. -/
theorem digitsOf_eq_cons {n : Nat} (h : n ≠ 0) : ∃ d ds, digitsOf n = (d + 1) :: ds := by
  induction n using Nat.strongRecOn with
  | ind n ih =>
    by_cases hn : n < 10
    · refine ⟨n - 1, [], ?_⟩
      rw [digitsOf, Decimal.digitChars, Nat.toDigits_of_lt_base hn, List.map_singleton,
        Nat.toNat_digitChar_of_lt_ten hn]
      have hzero : '0'.toNat = 48 := rfl
      congr 1
      omega
    · obtain ⟨d, ds, hd⟩ := ih (n / 10) (by omega) (by omega)
      refine ⟨d, ds ++ [(n % 10).digitChar.toNat - '0'.toNat], ?_⟩
      rw [digitsOf, Decimal.digitChars, Nat.toDigits_of_base_le (by decide) (by omega), List.map_append]
      exact congrArg (· ++ _) hd

theorem readWhole_digitChars (n : Nat) :
    readWhole (Decimal.digitChars n) = some (digitsOf n, []) := by
  rw [readWhole, digits_digitChars]
  by_cases hn : n = 0
  · subst hn
    rfl
  · obtain ⟨d, ds, hd⟩ := digitsOf_eq_cons hn
    rw [hd]
    rfl

/-- A whole number without sign is read as its digits. -/
theorem read_digitChars (n : Nat) :
    read (Decimal.digitChars n) = some (⟨false, digitsOf n, [], none⟩, []) := by
  obtain ⟨c, cs, hc⟩ := List.exists_cons_of_ne_nil (Nat.toDigits_ne_nil (b := 10) (n := n))
  have hminus : c ≠ '-' := by
    have hd : c.isDigit := Nat.isDigit_of_mem_toDigits (b := 10) (n := n) (by decide) (by decide)
      (hc ▸ List.mem_cons_self)
    rintro rfl
    cases hd
  have hwhole := readWhole_digitChars n
  rw [Decimal.digitChars, hc] at hwhole ⊢
  simp [read, hminus, hwhole, readFraction, readExponent]

/-- An integer of 64 bits comes back. -/
theorem read_intChars {n : Int} (hlow : -(Nat.pow 2 63 : Int) ≤ n) (hhigh : n < (Nat.pow 2 64 : Int)) :
    ∃ m, read (intChars n) = some (m, []) ∧ m.value? = some (.int n) := by
  cases n with
  | ofNat n =>
    refine ⟨⟨false, digitsOf n, [], none⟩, read_digitChars n, ?_⟩
    have hn : valueFrom 0 (digitsOf n) < Nat.pow 2 64 := by
      rw [valueFrom_digitsOf]
      exact Int.ofNat_lt.1 hhigh
    simp [value?, absorb_eq hn, valueFrom_digitsOf]
  | negSucc n =>
    have hle : n + 1 ≤ Nat.pow 2 63 := by omega
    refine ⟨⟨true, digitsOf (n + 1), [], none⟩, ?_, ?_⟩
    · simp [intChars, read, readWhole_digitChars, readFraction, readExponent]
    · have hn : valueFrom 0 (digitsOf (n + 1)) < Nat.pow 2 64 := by
        rw [valueFrom_digitsOf]
        exact Nat.lt_of_le_of_lt hle (by decide)
      have hfits : ¬Nat.pow 2 63 < n + 1 := Nat.not_lt.2 hle
      simp only [value?, absorb_eq hn, valueFrom_digitsOf, hfits, Nat.succ_ne_zero, Bool.not_true]
      rfl

end Numeral
end StepTrace.Json
