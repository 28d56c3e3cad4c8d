import StepTrace.Toml.Item

/-!
Numbers, booleans and times of TOML, each a word without blanks. Digits may have an underscore between
them.
-/
namespace StepTrace.Toml

def hexDigit? (c : Char) : Option Nat :=
  if '0' ≤ c ∧ c ≤ '9' then some (c.toNat - '0'.toNat)
  else if 'a' ≤ c ∧ c ≤ 'f' then some (c.toNat - 'a'.toNat + 10)
  else if 'A' ≤ c ∧ c ≤ 'F' then some (c.toNat - 'A'.toNat + 10)
  else none

def digit? (base : Nat) (c : Char) : Option Nat := (hexDigit? c).filter (· < base)

/-- The digits of a word: at least one, and an underscore only between two. -/
def digits? (base : Nat) : List Char → Option (List Nat)
  | [] => none
  | [c] => (digit? base c).map fun d => [d]
  | c :: '_' :: r => do return (← digit? base c) :: (← digits? base r)
  | c :: r => do return (← digit? base c) :: (← digits? base r)

def numberOf (base : Nat) (ds : List Nat) : Nat := ds.foldl (fun n d => n * base + d) 0

/-- Integers have 64 bits. -/
def bounded? (n : Int) : Option Int :=
  let bound : Int := Nat.pow 2 63
  if -bound ≤ n ∧ n < bound then some n else none

def unsigned : List Char → Bool × List Char
  | '-' :: r => (true, r)
  | '+' :: r => (false, r)
  | r => (false, r)

/-- Decimal digits without a zero in front. -/
def plain? (cs : List Char) : Option (List Nat) :=
  match digits? 10 cs with
  | some (0 :: _ :: _) => none
  | ds => ds

def integer? : List Char → Option Int
  | '0' :: 'x' :: r => (digits? 16 r).bind fun ds => bounded? (numberOf 16 ds)
  | '0' :: 'o' :: r => (digits? 8 r).bind fun ds => bounded? (numberOf 8 ds)
  | '0' :: 'b' :: r => (digits? 2 r).bind fun ds => bounded? (numberOf 2 ds)
  | cs =>
    let (negative, r) := unsigned cs
    (plain? r).bind fun ds =>
      bounded? (if negative then -(numberOf 10 ds : Int) else numberOf 10 ds)

/-- Whether a float of these digits and this exponent is finite. -/
def isFinite (ds : List Nat) (exponent : Int) : Bool :=
  let n := numberOf 10 ds
  let clamped : Int := max (-10000) (min 10000 exponent)
  !(Float.ofScientific n (decide (clamped < 0)) clamped.natAbs).isInf

/-- An exponent after its letter. -/
def exponent? (cs : List Char) : Option Int :=
  let (negative, r) := unsigned cs
  (digits? 10 r).map fun ds => if negative then -(numberOf 10 ds : Int) else numberOf 10 ds

def isExponentMark (c : Char) : Bool := c == 'e' || c == 'E'

def isFloat (cs : List Char) : Bool :=
  let (negative, r) := unsigned cs
  if r = ['i', 'n', 'f'] ∨ r = ['n', 'a', 'n'] then true
  else
    let mantissa := r.takeWhile (!isExponentMark ·)
    let exponent :=
      match r.dropWhile (!isExponentMark ·) with
      | [] => some none
      | _ :: e => (exponent? e).map some
    let whole := mantissa.takeWhile (· ≠ '.')
    let fraction :=
      match mantissa.dropWhile (· ≠ '.') with
      | [] => some none
      | _ :: f => (digits? 10 f).map some
    match plain? whole, fraction, exponent with
    | some _, some none, some none => false
    | some ds, some f, some e =>
      let fs := f.getD []
      negative || isFinite (ds ++ fs) (e.getD 0 - fs.length)
    | _, _, _ => false

/-- Two digits as a number. -/
def two? (a b : Char) : Option Nat := do return (← digit? 10 a) * 10 + (← digit? 10 b)

def daysIn (year month : Nat) : Nat :=
  if month = 2 then
    if year % 4 = 0 && (year % 100 ≠ 0 || year % 400 = 0) then 29 else 28
  else if month = 4 ∨ month = 6 ∨ month = 9 ∨ month = 11 then 30
  else 31

def isDate : List Char → Bool
  | [a, b, c, d, '-', e, f, '-', g, h] =>
    match two? a b, two? c d, two? e f, two? g h with
    | some y, some y', some month, some day =>
      1 ≤ month && month ≤ 12 && 1 ≤ day && day ≤ daysIn (y * 100 + y') month
    | _, _, _, _ => false
  | _ => false

def isOffset : List Char → Bool
  | [] => true
  | ['Z'] => true
  | ['z'] => true
  | [s, a, b, ':', c, d] =>
    (s == '+' || s == '-') &&
      match two? a b, two? c d with
      | some h, some m => h ≤ 23 && m ≤ 59
      | _, _ => false
  | _ => false

/-- A time of day; the time of a date may have an offset. -/
def isTime (withOffset : Bool) : List Char → Bool
  | a :: b :: ':' :: c :: d :: ':' :: e :: f :: r =>
    let inRange :=
      match two? a b, two? c d, two? e f with
      | some h, some m, some s => h ≤ 23 && m ≤ 59 && s ≤ 60
      | _, _, _ => false
    let rest :=
      match r with
      | '.' :: r => if (r.takeWhile Char.isDigit).isEmpty then none else some (r.dropWhile Char.isDigit)
      | r => some r
    inRange &&
      match rest with
      | none => false
      | some r => if withOffset then isOffset r else r.isEmpty
  | _ => false

def isMoment (cs : List Char) : Bool :=
  isTime false cs || isDate cs
    || (isDate (cs.take 10)
      && match cs.drop 10 with
        | c :: r => (c == 'T' || c == 't' || c == ' ') && isTime true r
        | [] => false)

/-- The value that a word stands for. -/
def scalar? (cs : List Char) : Option Item :=
  match integer? cs with
  | some n => some (.integer n)
  | none =>
    if cs = "true".toList ∨ cs = "false".toList ∨ isFloat cs ∨ isMoment cs then some .scalar
    else none

end StepTrace.Toml
