/-!
The text between quotation marks. Characters stand for themselves, except that a quotation mark, a
backslash and a control character are escaped. An escape `\u` names a unit of 16 bits, and two halves
of a surrogate pair stand for one character.
-/
namespace StepTrace.Json

/-- A piece of a quoted text: a character, or a unit of 16 bits that an escape names. -/
inductive Piece where
  | char (c : Char)
  | unit (n : Nat)
deriving DecidableEq, Repr, Inhabited

abbrev Quoted := List Piece

namespace Quoted

def isHigh (n : Nat) : Bool := 0xD800 ≤ n && n < 0xDC00

def isLow (n : Nat) : Bool := 0xDC00 ≤ n && n < 0xE000

/-- The character that two halves stand for. -/
def pair (high low : Nat) : Char := Char.ofNat (0x10000 + (high - 0xD800) * 0x400 + (low - 0xDC00))

/-- What the pieces stand for; a half of a pair that stands alone stands for nothing. -/
def decode : Quoted → Option (List Char)
  | [] => some []
  | .char c :: r => (decode r).map (c :: ·)
  | [.unit n] => if isHigh n || isLow n then none else some [Char.ofNat n]
  | .unit n :: .unit m :: r =>
    if isHigh n then
      if isLow m then (decode r).map (pair n m :: ·) else none
    else if isLow n then none
    else (decode (.unit m :: r)).map (Char.ofNat n :: ·)
  | .unit n :: .char c :: r =>
    if isHigh n || isLow n then none else (decode (.char c :: r)).map (Char.ofNat n :: ·)

def text? (q : Quoted) : Option String := q.decode.map String.ofList

def hexValue? (c : Char) : Option Nat :=
  if '0' ≤ c ∧ c ≤ '9' then some (c.toNat - '0'.toNat)
  else if 'a' ≤ c ∧ c ≤ 'f' then some (c.toNat - 'a'.toNat + 10)
  else if 'A' ≤ c ∧ c ≤ 'F' then some (c.toNat - 'A'.toNat + 10)
  else none

/-- The number that four hexadecimal digits stand for. -/
def unit? (a b c d : Char) : Option Nat := do
  return (((← hexValue? a) * 16 + (← hexValue? b)) * 16 + (← hexValue? c)) * 16 + (← hexValue? d)

/-- What an escape of one letter stands for. -/
def escaped? : Char → Option Char
  | '"' => some '"'
  | '\\' => some '\\'
  | '/' => some '/'
  | 'b' => some '\x08'
  | 'f' => some '\x0c'
  | 'n' => some '\n'
  | 'r' => some '\r'
  | 't' => some '\t'
  | _ => none

/-- Reads up to the closing quotation mark and gives the rest after it. -/
def read : List Char → Option (Quoted × List Char)
  | [] => none
  | '"' :: r => some ([], r)
  | '\\' :: 'u' :: a :: b :: c :: d :: r => do
    let n ← unit? a b c d
    let (q, rest) ← read r
    return (.unit n :: q, rest)
  | '\\' :: e :: r => do
    let c ← escaped? e
    let (q, rest) ← read r
    return (.char c :: q, rest)
  | c :: r =>
    if c.toNat < 0x20 || c == '\\' then none
    else do
      let (q, rest) ← read r
      return (.char c :: q, rest)

def hexDigit (n : Nat) : Char := if n < 10 then Char.ofNat (n + '0'.toNat) else Char.ofNat (n - 10 + 'a'.toNat)

/-- A character as it is written between quotation marks. -/
def escape (c : Char) : List Char :=
  if c = '"' then ['\\', '"']
  else if c = '\\' then ['\\', '\\']
  else if c = '\x08' then ['\\', 'b']
  else if c = '\x0c' then ['\\', 'f']
  else if c = '\n' then ['\\', 'n']
  else if c = '\r' then ['\\', 'r']
  else if c = '\t' then ['\\', 't']
  else if c.toNat < 0x20 then
    ['\\', 'u', '0', '0', hexDigit (c.toNat / 16), hexDigit (c.toNat % 16)]
  else [c]

/-- A text with its quotation marks. -/
def write (s : String) : List Char := '"' :: (s.toList.flatMap escape ++ ['"'])

end Quoted
end StepTrace.Json
