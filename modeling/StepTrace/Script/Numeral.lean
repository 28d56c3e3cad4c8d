import StepTrace.Decimal

/-!
The value of a number by its spelling: decimal with a fraction and an exponent, with a radix mark, or
of the old octal kind. Separators count for nothing.
-/
namespace StepTrace.Script.Numeral

def digitValue (c : Char) : Nat :=
  if c.isDigit then c.toNat - '0'.toNat else c.toLower.toNat - 'a'.toNat + 10

def natOfDigits (radix : Nat) (cs : List Char) : Nat :=
  cs.foldl (fun n c => n * radix + digitValue c) 0

def isOldOctal (cs : List Char) : Bool :=
  match cs with
  | '0' :: r => !r.isEmpty && r.all fun c => '0' ≤ c ∧ c ≤ '7'
  | _ => false

/-- The integer that a spelling without fraction and exponent stands for. -/
def natValue? (cs : List Char) : Option Nat :=
  match cs with
  | '0' :: 'x' :: r | '0' :: 'X' :: r => some (natOfDigits 16 r)
  | '0' :: 'o' :: r | '0' :: 'O' :: r => some (natOfDigits 8 r)
  | '0' :: 'b' :: r | '0' :: 'B' :: r => some (natOfDigits 2 r)
  | _ =>
    if isOldOctal cs then some (natOfDigits 8 cs)
    else if cs.all Char.isDigit then some (natOfDigits 10 cs)
    else none

/-- The decimal that a spelling with fraction or exponent stands for. -/
def decimalValue (cs : List Char) : Decimal :=
  let isExp (c : Char) : Bool := c == 'e' || c == 'E'
  let mantissa := cs.takeWhile (!isExp ·)
  let whole := mantissa.takeWhile (· ≠ '.')
  let fraction := (mantissa.dropWhile (· ≠ '.')).drop 1
  let exponent : Int :=
    match (cs.dropWhile (!isExp ·)).drop 1 with
    | '-' :: r => -(natOfDigits 10 r : Int)
    | '+' :: r => natOfDigits 10 r
    | r => natOfDigits 10 r
  ⟨false, natOfDigits 10 (whole ++ fraction), exponent - fraction.length⟩

/-- The value of a number. -/
def value (raw : String) : Float :=
  let cs := raw.toList.filter (· ≠ '_')
  match natValue? cs with
  | some n => Float.ofNat n
  | none => (decimalValue cs).toFloat

/-- The value as a message shows it. -/
def shown (raw : String) : String :=
  let cs := raw.toList.filter fun c => c ≠ '_' ∧ c ≠ 'n'
  if raw.toList.getLast? = some 'n' then
    match (if cs.all Char.isDigit then some (natOfDigits 10 cs) else natValue? cs) with
    | some n => toString n
    | none => raw
  else if (value raw).isInf then "inf"
  else Decimal.positional (Decimal.ofFloat (value raw))

end StepTrace.Script.Numeral
