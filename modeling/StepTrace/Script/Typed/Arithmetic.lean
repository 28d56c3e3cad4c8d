import StepTrace.Script.Operator
import StepTrace.Decimal

/-!
Arithmetic on numbers as a running program does it: shifts and bitwise operators work on words of 32
bits, and the remainder has the sign of the dividend.
-/
namespace StepTrace.Script.Arithmetic

/-- A finite number as `± mantissa · 2 ^ exponent`. -/
structure Binary where
  negative : Bool
  mantissa : Nat
  exponent : Int
deriving DecidableEq, Repr, Inhabited

namespace Binary

/-- The parts of a finite number. -/
def ofFloat (x : Float) : Binary :=
  let bits := x.toBits.toNat
  let e : Nat := bits / Nat.pow 2 52 % Nat.pow 2 11
  let fraction : Nat := bits % Nat.pow 2 52
  let negative := bits / Nat.pow 2 63 == 1
  if e = 0 then ⟨negative, fraction, -1074⟩ else ⟨negative, fraction + Nat.pow 2 52, (e : Int) - 1075⟩

def toFloat (b : Binary) : Float :=
  let x := (Float.ofNat b.mantissa).scaleB b.exponent
  if b.negative then -x else x

/-- The number without its fraction. -/
def truncate (b : Binary) : Int :=
  let n : Nat :=
    if 0 ≤ b.exponent then b.mantissa * Nat.pow 2 b.exponent.toNat
    else b.mantissa / Nat.pow 2 (-b.exponent).toNat
  if b.negative then -(n : Int) else n

/-- The remainder of a division, with the sign of the dividend. -/
def rem (a b : Binary) : Binary :=
  let e := min a.exponent b.exponent
  let m := a.mantissa * Nat.pow 2 (a.exponent - e).toNat
  let n := b.mantissa * Nat.pow 2 (b.exponent - e).toNat
  ⟨a.negative, m % n, e⟩

end Binary

def isFinite (x : Float) : Bool := !x.isNaN && !x.isInf

/-- How many words there are. -/
def wordCount : Nat := Nat.pow 2 32

/-- The word that a number stands for, as a natural number. -/
def wordOf (x : Float) : Nat :=
  if isFinite x then ((Binary.ofFloat x).truncate % (wordCount : Int)).toNat else 0

/-- A word as a number with a sign. -/
def signed (n : Nat) : Float := Float.ofInt ((n : Int).bmod wordCount)

def rem (x y : Float) : Float :=
  if x.isNaN || y.isNaN || x.isInf || y == 0 then 0.0 / 0.0
  else if y.isInf then x
  else (Binary.rem (.ofFloat x) (.ofFloat y)).toFloat

/-- A power of one with an exponent that is no finite number is no number either. -/
def pow (x y : Float) : Float :=
  if y.isNaN || (y.isInf && x.abs == 1) then 0.0 / 0.0 else Float.pow x y

/-- Flips the bits of a word. -/
def complement (x : Float) : Float := signed (wordCount - 1 - wordOf x)

/-- The value of a binary operator that computes a number. -/
def binary? (op : BinaryOp) (x y : Float) : Option Float :=
  match op with
  | .add => some (x + y)
  | .sub => some (x - y)
  | .mul => some (x * y)
  | .div => some (x / y)
  | .rem => some (rem x y)
  | .exp => some (pow x y)
  | .shiftLeft => some (signed (wordOf x * Nat.pow 2 (wordOf y % 32) % wordCount))
  | .shiftRight => some (Float.ofInt ((wordOf x : Int).bmod wordCount / (Nat.pow 2 (wordOf y % 32) : Nat)))
  | .shiftRightZero => some (Float.ofNat (wordOf x / Nat.pow 2 (wordOf y % 32)))
  | .bitOr => some (signed (wordOf x ||| wordOf y))
  | .bitXor => some (signed (wordOf x ^^^ wordOf y))
  | .bitAnd => some (signed (wordOf x &&& wordOf y))
  | _ => none

/-- A number as a program turns it into a text: positional below `10 ^ 21` and from `10 ^ -6` on,
otherwise with an exponent that has a sign. -/
def text (x : Float) : String :=
  if x.isNaN then "NaN"
  else if x.isInf then if x < 0 then "-Infinity" else "Infinity"
  else
    let d := Decimal.ofFloat x
    let ds := Decimal.digitChars d.digits
    let n : Int := ds.length + d.exponent
    let magnitude :=
      if d.digits = 0 then ['0']
      else if -6 < n ∧ n ≤ 21 then Decimal.pointed ds n
      else
        let mantissa := if ds.length = 1 then ds else ds.take 1 ++ '.' :: ds.drop 1
        mantissa ++ (if n ≤ 0 then "e-" else "e+").toList ++ (toString (n - 1).natAbs).toList
    String.ofList (if d.negative && d.digits != 0 then '-' :: magnitude else magnitude)

end StepTrace.Script.Arithmetic
