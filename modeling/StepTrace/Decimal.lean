/-!
Decimal forms of binary floating point numbers. The shortest form has the fewest digits that read
back as the number, and among those the digits nearest to it.
-/
namespace StepTrace

/-- The number `digits · 10 ^ exponent`, negated if `negative`. -/
structure Decimal where
  negative : Bool
  digits : Nat
  exponent : Int
deriving DecidableEq, Repr, Inhabited

namespace Decimal

/-- A positive rational number as numerator and denominator. -/
structure Ratio where
  num : Nat
  den : Nat
deriving DecidableEq, Repr, Inhabited

namespace Ratio

def le (a b : Ratio) : Bool := a.num * b.den ≤ b.num * a.den

def lt (a b : Ratio) : Bool := a.num * b.den < b.num * a.den

/-- `d · 10 ^ k`. -/
def ofScaled (d : Nat) (k : Int) : Ratio :=
  if 0 ≤ k then ⟨d * Nat.pow 10 k.toNat, 1⟩ else ⟨d, Nat.pow 10 (-k).toNat⟩

/-- `m · 2 ^ q`. -/
def ofBinary (m : Nat) (q : Int) : Ratio :=
  if 0 ≤ q then ⟨m * Nat.pow 2 q.toNat, 1⟩ else ⟨m, Nat.pow 2 (-q).toNat⟩

/-- The integer part of `a / 10 ^ k`. -/
def floorScaled (a : Ratio) (k : Int) : Nat :=
  if 0 ≤ k then a.num / (a.den * Nat.pow 10 k.toNat)
  else a.num * Nat.pow 10 (-k).toNat / a.den

/-- The distance of two ratios. -/
def distance (a b : Ratio) : Ratio :=
  ⟨(a.num * b.den - b.num * a.den) + (b.num * a.den - a.num * b.den), a.den * b.den⟩

/-- The exponent of the leading decimal digit of a positive ratio. -/
def leadingExponent (a : Ratio) : Int :=
  let guess := (((a.num.log2 : Int) - a.den.log2) * 30103) / 100000
  if a.lt (ofScaled 1 guess) then guess - 1
  else if (ofScaled 1 (guess + 1)).le a then guess + 1
  else guess

end Ratio

/-- The numbers that read as one floating point number: from `low` to `high` around `value`, with
both ends if `closed`. -/
structure Interval where
  low : Ratio
  value : Ratio
  high : Ratio
  closed : Bool

namespace Interval

/-- The interval of the number `m · 2 ^ q`; the gap below a power of two is half as wide. -/
def ofBinary (m : Nat) (q : Int) (narrow : Bool) : Interval :=
  { low := .ofBinary (4 * m - if narrow then 1 else 2) (q - 2)
    value := .ofBinary (4 * m) (q - 2)
    high := .ofBinary (4 * m + 2) (q - 2)
    closed := m % 2 == 0 }

def contains (i : Interval) (a : Ratio) : Bool :=
  if i.closed then i.low.le a && a.le i.high else i.low.lt a && a.lt i.high

/-- The member of the grid `10 ^ k · ℕ` that is nearest to the value, if one lies in the interval. -/
def nearest? (i : Interval) (k : Int) : Option Nat :=
  let d := i.value.floorScaled k
  let below := Ratio.ofScaled d k
  let above := Ratio.ofScaled (d + 1) k
  match i.contains below, i.contains above with
  | true, true =>
    let down := i.value.distance below
    let up := i.value.distance above
    if down.lt up then some d else if up.lt down then some (d + 1)
    else if d % 2 == 0 then some d else some (d + 1)
  | true, false => some d
  | false, true => some (d + 1)
  | false, false => none

/-- The first grid with a member in the interval, from coarse to fine. -/
def search (i : Interval) (lead : Int) : Nat → Nat → Nat × Int
  | 0, _ => (i.value.floorScaled 0, 0)
  | fuel + 1, n =>
    match i.nearest? (lead - n) with
    | some d => (d, lead - n)
    | none => search i lead fuel (n + 1)

end Interval

/-- Moves trailing zeros of the digits into the exponent. -/
def trim : Nat → Nat → Int → Nat × Int
  | 0, d, k => (d, k)
  | fuel + 1, d, k => if d != 0 && d % 10 == 0 then trim fuel (d / 10) (k + 1) else (d, k)

/-- The fewest digits that read back as a finite number. -/
def ofFloat (x : Float) : Decimal :=
  let bits := x.toBits.toNat
  let negative := bits / Nat.pow 2 63 == 1
  let e : Nat := bits / Nat.pow 2 52 % Nat.pow 2 11
  let fraction : Nat := bits % Nat.pow 2 52
  if e == 0 && fraction == 0 then ⟨negative, 0, 0⟩
  else
    let (m, q) : Nat × Int :=
      if e == 0 then (fraction, -1074) else (fraction + Nat.pow 2 52, (e : Int) - 1075)
    let i := Interval.ofBinary m q (fraction == 0 && 1 < e)
    let (d, k) := i.search i.value.leadingExponent 18 0
    let (d, k) := trim 20 d k
    ⟨negative, d, k⟩

/-- The float that a decimal reads as. -/
def toFloat (d : Decimal) : Float :=
  let x := Float.ofScientific d.digits (decide (d.exponent < 0)) d.exponent.natAbs
  if d.negative then -x else x

def digitChars (d : Nat) : List Char := Nat.toDigits 10 d

/-- Digits with a point after the first `n` of them; a missing integer part is written as `0`. -/
def pointed (ds : List Char) (n : Int) : List Char :=
  if n ≤ 0 then '0' :: '.' :: (List.replicate (-n).toNat '0' ++ ds)
  else if (ds.length : Int) ≤ n then ds ++ List.replicate (n - ds.length).toNat '0'
  else ds.take n.toNat ++ '.' :: ds.drop n.toNat

/-- Positional notation for every exponent, without a point in whole numbers. -/
def positional (d : Decimal) : String :=
  let ds := digitChars d.digits
  let text := if d.digits == 0 then ['0'] else pointed ds (ds.length + d.exponent)
  String.ofList (if d.negative then '-' :: text else text)

/-- Positional notation when the leading digit has an exponent from -5 to 15, with `.0` in whole
numbers, and otherwise an exponent after `e`. -/
def pointedOrScaled (d : Decimal) : String :=
  let ds := digitChars d.digits
  let n : Int := ds.length + d.exponent
  let text :=
    if d.digits == 0 then ['0', '.', '0']
    else if 0 ≤ d.exponent && n ≤ 16 then pointed ds n ++ ['.', '0']
    else if -5 < n && n ≤ 16 then pointed ds n
    else
      let mantissa := if ds.length == 1 then ds else ds.take 1 ++ '.' :: ds.drop 1
      mantissa ++ 'e' :: (toString (n - 1)).toList
  String.ofList (if d.negative then '-' :: text else text)

end Decimal
end StepTrace
