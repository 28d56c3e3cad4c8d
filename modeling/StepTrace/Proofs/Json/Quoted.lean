import Mathlib.Tactic.FinCases
import StepTrace.Json.Quoted

/-!
Texts between quotation marks. What is written for a text is read as the pieces of its characters, and these
stand for the text.
-/
namespace StepTrace.Json

namespace Quoted

/-- The characters with an escape of one letter. -/
def shortEscaped : List Char := ['"', '\\', '\x08', '\x0c', '\n', '\r', '\t']

/-- The piece that a character comes back as: a unit that its escape names, or the character. -/
def pieceOf (c : Char) : Piece :=
  if c.toNat < 0x20 ∧ c ∉ shortEscaped then .unit c.toNat else .char c

/-- A character has a short escape, or is a control character and has a long one, or stands for itself. -/
theorem escape_cases (c : Char) :
    c ∈ shortEscaped ∨
      (c.toNat < 0x20 ∧ pieceOf c = .unit c.toNat ∧
        escape c = ['\\', 'u', '0', '0', hexDigit (c.toNat / 16), hexDigit (c.toNat % 16)]) ∨
      (¬c.toNat < 0x20 ∧ c ∉ shortEscaped ∧ pieceOf c = .char c ∧ escape c = [c]) := by
  by_cases hshort : c ∈ shortEscaped
  · exact .inl hshort
  · have hne := hshort
    simp only [shortEscaped, List.mem_cons, List.not_mem_nil, or_false, not_or] at hne
    by_cases hc : c.toNat < 0x20
    · exact .inr (.inl ⟨hc, if_pos ⟨hc, hshort⟩, by simp [escape, *]⟩)
    · exact .inr (.inr ⟨hc, hshort, if_neg fun h => hc h.1, by simp [escape, *]⟩)

theorem read_escape (c : Char) (r : List Char) :
    read (escape c ++ r) = (read r).map fun p => (pieceOf c :: p.1, p.2) := by
  obtain hshort | ⟨hc, hpiece, hescape⟩ | ⟨hc, hshort, hpiece, hescape⟩ := escape_cases c
  · rw [shortEscaped] at hshort
    fin_cases hshort <;> (cases h : read r <;> simp [escape, read, escaped?, h, pieceOf, shortEscaped])
  · have hunit : ∀ n < 0x20, unit? '0' '0' (hexDigit (n / 16)) (hexDigit (n % 16)) = some n := by
      decide
    simp only [hescape, hpiece, List.cons_append, List.nil_append, read, hunit c.toNat hc]
    cases read r <;> rfl
  · simp only [shortEscaped, List.mem_cons, List.not_mem_nil, or_false, not_or] at hshort
    rw [hescape, hpiece, List.cons_append, List.nil_append, read.eq_def]
    cases h : read r <;> simp [*]

theorem decode_pieceOf (c : Char) (q : Quoted) :
    decode (pieceOf c :: q) = (decode q).map (c :: ·) := by
  by_cases hc : c.toNat < 0x20 ∧ c ∉ shortEscaped
  · -- a control character is no half of a pair, so the piece after it does not matter
    have hhigh : isHigh c.toNat = false := by
      have := hc.1
      simp [isHigh]
      omega
    have hlow : isLow c.toNat = false := by
      have := hc.1
      simp [isLow]
      omega
    rw [pieceOf, if_pos hc]
    rcases q with _ | ⟨p, q⟩
    · simp [decode, hhigh, hlow]
    · cases p <;> simp [decode, hhigh, hlow]
  · rw [pieceOf, if_neg hc, decode]

/-- A text comes back as the pieces of its characters. -/
theorem read_escaped (cs r : List Char) :
    read (cs.flatMap escape ++ '"' :: r) = some (cs.map pieceOf, r) := by
  induction cs with
  | nil => rfl
  | cons c cs ih =>
    rw [List.flatMap_cons, List.append_assoc, read_escape, ih]
    rfl

/-- Characters that are read as a quoted text, the closing quotation mark being the last of them. -/
def Closes (k : List Char) (q : Quoted) : Prop := ∀ rest, read (k ++ rest) = some (q, rest)

theorem closes_escaped (cs : List Char) : Closes (cs.flatMap escape ++ ['"']) (cs.map pieceOf) := by
  intro rest
  rw [List.append_assoc, List.singleton_append, read_escaped]

/-- What is read does not depend on what comes after the closing quotation mark. -/
theorem exists_of_read {cs r : List Char} {q : Quoted} (h : read cs = some (q, r)) :
    ∃ k, cs = k ++ r ∧ Closes k q := by
  fun_induction read cs generalizing q r with
  | case1 => cases h
  | case2 =>
    cases h
    exact ⟨['"'], rfl, fun rest => rfl⟩
  | case3 a b c d cs ih =>
    obtain ⟨n, hn, h⟩ := Option.bind_eq_some_iff.1 h
    obtain ⟨⟨q', r'⟩, hq, h⟩ := Option.bind_eq_some_iff.1 h
    cases h
    obtain ⟨k, rfl, hk⟩ := ih hq
    exact ⟨'\\' :: 'u' :: a :: b :: c :: d :: k, rfl, fun rest => by simp [read, hn, hk rest]⟩
  | case4 e cs _ ih =>
    obtain ⟨c, hc, h⟩ := Option.bind_eq_some_iff.1 h
    obtain ⟨⟨q', r'⟩, hq, h⟩ := Option.bind_eq_some_iff.1 h
    cases h
    obtain ⟨k, rfl, hk⟩ := ih hq
    have hne : e ≠ 'u' := by
      rintro rfl
      simp [escaped?] at hc
    exact ⟨'\\' :: e :: k, rfl, fun rest => by simp [read, hne, hc, hk rest]⟩
  | case5 => cases h
  | case6 c cs hquote _ _ hplain ih =>
    obtain ⟨⟨q', r'⟩, hq, h⟩ := Option.bind_eq_some_iff.1 h
    cases h
    obtain ⟨k, rfl, hk⟩ := ih hq
    have hc : c ≠ '"' ∧ 0x20 ≤ c.toNat ∧ c ≠ '\\' := ⟨hquote, by simpa using hplain⟩
    exact ⟨c :: k, rfl, fun rest => by simp [read, hc, hk rest]⟩

theorem text?_pieces (s : String) : text? (s.toList.map pieceOf) = some s := by
  have hdecode (cs : List Char) : decode (cs.map pieceOf) = some cs := by
    induction cs with
    | nil => rfl
    | cons c cs ih => rw [List.map_cons, decode_pieceOf, ih, Option.map_some]
  rw [text?, hdecode, Option.map_some, String.ofList_toList]

/-- No line feed stands for itself between quotation marks. -/
theorem feed_not_mem_write (s : String) : '\n' ∉ write s := by
  have hescape (c : Char) : '\n' ∉ escape c := by
    obtain hshort | ⟨hc, -, he⟩ | ⟨-, hshort, -, he⟩ := escape_cases c
    · rw [shortEscaped] at hshort
      fin_cases hshort <;> decide
    · have hlong : ∀ n < 0x20,
          '\n' ∉ ['\\', 'u', '0', '0', hexDigit (n / 16), hexDigit (n % 16)] := by decide
      exact he ▸ hlong c.toNat hc
    · rw [he, List.mem_singleton]
      rintro rfl
      exact hshort (by decide)
  simp [write, hescape]

end Quoted

end StepTrace.Json
