/-!
The operators of JavaScript expressions, with their spelling and the strength with which a binary
operator holds its operands.
-/
namespace StepTrace.Script

inductive BinaryOp where
  | eqEq | notEq | eqEqEq | notEqEq
  | lt | ltEq | gt | gtEq
  | shiftLeft | shiftRight | shiftRightZero
  | add | sub | mul | div | rem
  | bitOr | bitXor | bitAnd
  | inObject | instanceOf | exp
  | logicalOr | logicalAnd | nullish
deriving DecidableEq, Repr, Inhabited

inductive AssignOp where
  | set | add | sub | mul | div | rem
  | shiftLeft | shiftRight | shiftRightZero
  | bitOr | bitXor | bitAnd | exp
  | logicalAnd | logicalOr | nullish
deriving DecidableEq, Repr, Inhabited

inductive UnaryOp where
  | minus | plus | bang | tilde | typeof | void | delete
deriving DecidableEq, Repr, Inhabited

inductive UpdateOp where
  | increment | decrement
deriving DecidableEq, Repr, Inhabited

namespace BinaryOp

def text : BinaryOp → String
  | eqEq => "==" | notEq => "!=" | eqEqEq => "===" | notEqEq => "!=="
  | lt => "<" | ltEq => "<=" | gt => ">" | gtEq => ">="
  | shiftLeft => "<<" | shiftRight => ">>" | shiftRightZero => ">>>"
  | add => "+" | sub => "-" | mul => "*" | div => "/" | rem => "%"
  | bitOr => "|" | bitXor => "^" | bitAnd => "&"
  | inObject => "in" | instanceOf => "instanceof" | exp => "**"
  | logicalOr => "||" | logicalAnd => "&&" | nullish => "??"

/-- A binary operator takes operands that hold tighter than itself. -/
def strength : BinaryOp → Nat
  | nullish => 1
  | logicalOr => 1
  | logicalAnd => 2
  | bitOr => 3
  | bitXor => 4
  | bitAnd => 5
  | eqEq | notEq | eqEqEq | notEqEq => 6
  | lt | ltEq | gt | gtEq | instanceOf | inObject => 7
  | shiftLeft | shiftRight | shiftRightZero => 8
  | add | sub => 9
  | mul | div | rem => 10
  | exp => 11

end BinaryOp

namespace AssignOp

def text : AssignOp → String
  | set => "=" | add => "+=" | sub => "-=" | mul => "*=" | div => "/=" | rem => "%="
  | shiftLeft => "<<=" | shiftRight => ">>=" | shiftRightZero => ">>>="
  | bitOr => "|=" | bitXor => "^=" | bitAnd => "&=" | exp => "**="
  | logicalAnd => "&&=" | logicalOr => "||=" | nullish => "??="

end AssignOp

namespace UnaryOp

def text : UnaryOp → String
  | minus => "-" | plus => "+" | bang => "!" | tilde => "~"
  | typeof => "typeof" | void => "void" | delete => "delete"

/-- A word needs a blank before its operand. -/
def isWord : UnaryOp → Bool
  | typeof | void | delete => true
  | _ => false

end UnaryOp

namespace UpdateOp

def text : UpdateOp → String
  | increment => "++" | decrement => "--"

end UpdateOp

end StepTrace.Script
