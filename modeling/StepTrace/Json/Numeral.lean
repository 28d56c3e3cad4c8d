import StepTrace.Json.Basic

/-!
Numbers as they are written. A number without point and exponent is an integer if it fits into 64
bits; every other one is a float. The float is the product, or the quotient, of a whole number of 64
bits and a power of ten, each rounded once.
-/
namespace StepTrace.Json

/-- A number as it is written: digits before the point, digits after it, and an exponent. -/
structure Numeral where
  negative : Bool
  whole : List Nat
  fraction : List Nat
  exponent : Option (Bool × List Nat)
deriving DecidableEq, Repr, Inhabited

namespace Numeral

def digit? (c : Char) : Option Nat :=
  if '0' ≤ c ∧ c ≤ '9' then some (c.toNat - '0'.toNat) else none

/-- The digits that a text starts with, and the rest. -/
def digits : List Char → List Nat × List Char
  | [] => ([], [])
  | c :: r =>
    match digit? c with
    | some d => let (ds, rest) := digits r; (d :: ds, rest)
    | none => ([], c :: r)

/-- The digits before the point: `0` stands alone. -/
def readWhole (cs : List Char) : Option (List Nat × List Char) :=
  match digits cs with
  | ([], _) => none
  | (0 :: _ :: _, _) => none
  | (ds, r) => some (ds, r)

def readFraction : List Char → Option (List Nat × List Char)
  | '.' :: r =>
    match digits r with
    | ([], _) => none
    | (ds, r) => some (ds, r)
  | r => some ([], r)

/-- An exponent after its letter: a sign, and digits. -/
def readPower (cs : List Char) : Option (Option (Bool × List Nat) × List Char) :=
  let (negative, r) :=
    match cs with
    | '-' :: r => (true, r)
    | '+' :: r => (false, r)
    | r => (false, r)
  match digits r with
  | ([], _) => none
  | (ds, r) => some (some (negative, ds), r)

def readExponent : List Char → Option (Option (Bool × List Nat) × List Char)
  | 'e' :: r => readPower r
  | 'E' :: r => readPower r
  | r => some (none, r)

def read (cs : List Char) : Option (Numeral × List Char) := do
  let (negative, r) :=
    match cs with
    | '-' :: r => (true, r)
    | r => (false, r)
  let (whole, r) ← readWhole r
  let (fraction, r) ← readFraction r
  let (exponent, r) ← readExponent r
  return (⟨negative, whole, fraction, exponent⟩, r)

/-- Takes digits into a number as long as it stays within 64 bits, and gives the digits that are left. -/
def absorb (n : Nat) : List Nat → Nat × List Nat
  | [] => (n, [])
  | d :: r => if n * 10 + d < Nat.pow 2 64 then absorb (n * 10 + d) r else (n, d :: r)

def powerOfTen (n : Nat) : Float := Float.ofScientific 1 false n

/-- The largest power of ten that is a float. -/
def largestPower : Nat := 308

/-- Divides by ten as often as said, in steps of the largest power. -/
def divided : Nat → Float → Nat → Float
  | 0, x, _ => x
  | fuel + 1, x, n =>
    if n ≤ largestPower then x / powerOfTen n
    else if x == 0 then x
    else divided fuel (x / powerOfTen largestPower) (n - largestPower)

/-- A whole number of 64 bits times a power of ten, if the product is finite. -/
def scaled (n : Nat) (exponent : Int) : Option Float :=
  let x := Float.ofScientific n false 0
  if exponent < 0 then some (divided 4 x exponent.natAbs)
  else if exponent.toNat ≤ largestPower then
    let y := x * powerOfTen exponent.toNat
    if y.isInf then none else some y
  else if n = 0 then some x
  else none

/-- Exponents of more than 31 bits are told apart by their sign only. -/
def power (ds : List Nat) : Nat :=
  min (ds.foldl (fun n d => n * 10 + d) 0) (Nat.pow 2 31)

def signed (negative : Bool) (x : Float) : Json := .float (if negative then -x else x)

/-- The number that is meant, if there is one. -/
def value? (n : Numeral) : Option Json :=
  let (significand, left) := absorb 0 n.whole
  match n.fraction, n.exponent, left with
  | [], none, [] =>
    if !n.negative then some (.int significand)
    else if significand = 0 || Nat.pow 2 63 < significand then
      (scaled significand 0).map (signed true)
    else some (.int (-significand))
  | _, _, _ =>
    let (significand, unused) := absorb significand n.fraction
    let shift : Int := (left.length : Int) - (n.fraction.length - unused.length : Nat)
    let shift :=
      match n.exponent with
      | none => shift
      | some (true, ds) => shift - power ds
      | some (false, ds) => shift + power ds
    (scaled significand shift).map (signed n.negative)

end Numeral
end StepTrace.Json
