import StepTrace.Script.Node
import StepTrace.Script.Numeral
import StepTrace.Script.Typed.Arithmetic

/-!
Values of the members of enumerations. A member without an initializer is one more than the member before
it, if that is a number. An initializer made of numbers, texts and known members is worked out; of any other
an expression is left.
-/
namespace StepTrace.Script

inductive EnumValue where
  | number (x : Float)
  | text (s : String)
  | computed (e : Expr)
  | missing

/-- Members with their values, the latest first. -/
abbrev EnumValues := List (String × EnumValue)

namespace EnumValue

/-- The value of a next member without an initializer. -/
def next : EnumValue → EnumValue
  | number x => number (x + 1)
  | _ => missing

def isConstant : EnumValue → Bool
  | number _ | text _ => true
  | _ => false

def isText : EnumValue → Bool
  | text _ => true
  | _ => false

/-- A number as an expression. -/
def exprOfFloat (x : Float) : Expr :=
  if x.isNaN then .ofName "NaN"
  else if x.isInf then
    let e : Expr := .ofName "Infinity"
    if x < 0 then .unary none .minus e else e
  else .literal none (.number (Decimal.positional (Decimal.ofFloat x)))

/-- A value as an expression; one that is missing is undefined. -/
def toExpr : EnumValue → Expr
  | number x => exprOfFloat x
  | text s => .literal none (.string s "")
  | computed e => e
  | missing => .unary none .void (.literal none (.number "0"))

/-- The text of a constant in a template. -/
def shown? : EnumValue → Option String
  | number x => some (Arithmetic.text x)
  | text s => some s
  | _ => none

/-- The value of a binary operator on constants. -/
def binary? (op : BinaryOp) : EnumValue → EnumValue → Option EnumValue
  | number x, number y => (Arithmetic.binary? op x y).map number
  | a, b =>
    if op = .add then
      match a.shown?, b.shown? with
      | some s, some t => some (text (s ++ t))
      | _, _ => none
    else none

end EnumValue

/-- What is known while the members of an enumeration are worked out. -/
structure EnumScope where
  name : String
  /-- The members that can be read by their names. -/
  members : List String
  /-- The members that have a value by now. -/
  own : EnumValues
  others : String → EnumValues
  /-- A name is declared around the enumeration. -/
  isDeclared : String → Bool

namespace EnumScope

/-- A member of an enumeration that is named with it. -/
def member? (s : EnumScope) (obj : Expr) (name : String) : Option EnumValue :=
  match obj.withoutAscriptions with
  | .ident n =>
    if s.members.contains n.text then none
    else
      match (if n.text = s.name then s.own else s.others n.text).lookup name with
      | some .missing => none
      | v => v
  | _ => none

/-- The number that a name stands for wherever it is not declared. -/
def global? (s : EnumScope) (name : String) : Option Float :=
  if s.members.contains name || s.isDeclared name then none
  else if name = "NaN" then some (0.0 / 0.0)
  else if name = "Infinity" then some (1.0 / 0.0)
  else none

/-- The constant that a name alone stands for: a number that has a name, or a member. -/
def constant? (s : EnumScope) (name : String) : Option EnumValue :=
  match s.global? name with
  | some x => some (.number x)
  | none => (s.own.lookup name).filter EnumValue.isConstant

def isFolded (op : BinaryOp) : Bool := (Arithmetic.binary? op 1 1).isSome

/-- The value of an operator before a number. -/
def unary? (op : UnaryOp) (x : Float) : Option Float :=
  match op with
  | .plus => some x
  | .minus => some (-x)
  | .tilde => some (Arithmetic.complement x)
  | _ => none

mutual

/-- The value of an initializer. Where it cannot be worked out, what is left of it is taken from the
second expression, which is the first one as the program is to have it. -/
def fold (s : EnumScope) : Expr → Expr → EnumValue
  | .literal _ (.string v _), _ => .text v
  | .literal _ (.number raw), _ => .number (Numeral.value raw)
  | .ident n, left => (s.constant? n.text).getD (.computed left)
  | .paren _ e, left => s.fold e left.operand
  | .ascribed _ _ e, left => s.fold e left.withoutAscriptions
  | .unary p op e, left =>
    match s.fold e left.operand with
    | .number x => ((unary? op x).map .number).getD (.computed left)
    | v => .computed (if (unary? op 0).isSome then .unary p op v.toExpr else left)
  | .binary p op l r, left =>
    if isFolded op then
      let a := s.fold l left.leftOperand
      let b := s.fold r left.rightOperand
      (EnumValue.binary? op a b).getD (.computed (.binary p op a.toExpr b.toExpr))
    else .computed left
  | .member _ .plain obj n, left => (s.member? obj n.text).getD (.computed left)
  | .index _ .plain obj k, left =>
    match k.withoutAscriptions with
    | .literal _ (.string v _) => (s.member? obj v).getD (.computed left)
    | _ => .computed left
  | .template _ chunks parts, left =>
    match s.texts? parts with
    | some ts => .text (String.join (go chunks ts))
    | none => .computed left
  | _, left => .computed left
where
  go : List String → List String → List String
    | c :: cs, t :: ts => c :: t :: go cs ts
    | cs, _ => cs

/-- The texts of the holes of a template, if all are constants. -/
def texts? (s : EnumScope) : List Expr → Option (List String)
  | [] => some []
  | e :: r =>
    match (s.fold e e).shown?, s.texts? r with
    | some t, some ts => some (t :: ts)
    | _, _ => none

end

/-- The value of a member with or without an initializer; `next` follows the member before it. -/
def value (s : EnumScope) (init left : Option Expr) (next : EnumValue) : EnumValue :=
  match init, left with
  | some e, some l => s.fold e l
  | _, _ => next

/-- One more member has a value. -/
def know (s : EnumScope) (name : String) (v : EnumValue) : EnumScope :=
  { s with own := (name, v) :: s.own }

/-- Members with their values in order, of which the first is `next` if it has no initializer. -/
def values (s : EnumScope) : EnumValue → List EnumMember → EnumValues
  | _, [] => []
  | next, .mk _ _ n init :: r =>
    let v := s.value init init next
    (n, v) :: values (s.know n v) v.next r

/-- Each member has one value, and their order is kept. -/
theorem names_values (s : EnumScope) (next : EnumValue) (members : List EnumMember) :
    (s.values next members).map Prod.fst = members.map fun | .mk _ _ n _ => n := by
  induction members generalizing s next with
  | nil => rfl
  | cons m r ih => cases m; simp [values, ih]

end EnumScope

end StepTrace.Script
