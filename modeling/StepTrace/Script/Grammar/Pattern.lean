import StepTrace.Script.Grammar.Basic

/-!
Patterns and parameters. What is written before `=`, `=>`, `in` or `of` is first read as an
expression; `Pat.ofExpr` reads it again as a pattern.
-/
namespace StepTrace.Script

/-- Where a pattern stands: in a declaration or before an assignment, at the top or inside another
pattern. -/
inductive PatRole where
  | binding | bindingElement | target | targetElement
deriving DecidableEq, Repr, Inhabited

namespace PatRole

def element : PatRole → PatRole
  | binding | bindingElement => bindingElement
  | target | targetElement => targetElement

end PatRole

namespace Expr

/-- A place that can be assigned to without taking it apart. -/
def isSimpleTarget (strict : Bool) : Expr → Bool
  | ident n => !(strict && Parse.isEvalOrArguments n.text)
  | paren _ e => e.isSimpleTarget strict
  | member _ l .. | index _ l .. => l == .plain
  | ascribed _ how e => how != .asConst && how != .angleConst && e.isSimpleTarget strict
  | _ => false

/-- What the tree has room for to the left of an assignment. -/
def isTargetForm : Expr → Bool
  | ident _ | member .. | index .. | paren .. => true
  | call _ l .. => l != .plain
  | ascribed _ how _ => how != .asConst && how != .angleConst
  | _ => false

end Expr

namespace Parse

/-- Records a fault if an expression cannot be assigned to. In typed programs literals and operators may
pass, and calls too, since they fail only when they run. -/
def checkTarget (e : Expr) (denyCall : Bool) : Parse Unit := do
  let typed ← isTyped
  let reservedName := typed && match e with
    | .ident n => isEvalOrArguments n.text
    | _ => false
  if reservedName then noteForModule e.start .usesArguments
  else if !e.isSimpleTarget (← setting).strict && (!typed || denied e) then
    emit e.start .notAssignable
where
  denied : Expr → Bool
    | .literal .. | .binary .. => false
    | .call _ .plain .. => denyCall
    | .paren _ e => denied e
    | _ => true

end Parse

namespace Pat

open Parse

mutual

/-- Reads an expression again as a pattern. -/
def ofExpr (role : PatRole) : Expr → Parse Pat
  | .ident n => do
    if role = .target then checkTarget (.ident n) true
    if role = .targetElement && !(Expr.ident n).isSimpleTarget (← setting).strict then
      emit (Expr.ident n).start .cannotAssign
    return .ident n
  | .object p members => do
    let trailing := (← get).trailingCommas.lookup p.start
    return .object p (← ofMembers role trailing members)
  | .array p items => do
    let trailing := (← get).trailingCommas.lookup p.start
    return .array p (← ofItems role trailing items)
  | .assign p op left right => do
    let e := Expr.assign p op left right
    match role with
    | .target =>
      checkTarget e true
      return .expr e
    | _ =>
      if op = .set then return .withDefault p left right
      emit e.start .notAPattern
      return .missing e.start
  | e => do
    match role with
    | .target =>
      checkTarget e true
      return .expr e
    | .targetElement =>
      match e with
      | .member _ .plain .. | .index _ .plain .. | .call _ .plain .. | .construct .. | .literal ..
      | .func .. | .classExpr .. | .paren .. | .template .. | .ascribed _ .asType _ =>
        unless e.isSimpleTarget (← setting).strict do emit e.start .cannotAssign
        return .expr e
      | _ =>
        emit e.start .notAPattern
        return .missing e.start
    | _ =>
      emit e.start .notAPattern
      return .missing e.start

def ofItems (role : PatRole) (trailing : Option Span) : List Expr → Parse (List Pat)
  | [] => return []
  | .elision :: r => do
    if r.all fun | .elision => true | _ => false then return []
    return .elision :: (← ofItems role trailing r)
  | .spread p e :: r => do
    match r with
    | [] =>
      if let .assign .. := e then emit p.start .restWithDefault
      if let some c := trailing then emit c.start .commaAfterRest
    | _ => emit p.start .restNotLast
    let arg ← ofExpr role.element e
    return .rest e.place arg :: (← ofItems role trailing r)
  | e :: r => do
    let q ← ofExpr role.element e
    return q :: (← ofItems role trailing r)

def ofMembers (role : PatRole) (trailing : Option Span) : List Property → Parse (List PatProperty)
  | [] => return []
  | .shorthand n init :: r => return .shorthand n.place n init :: (← ofMembers role trailing r)
  | .keyValue key e :: r => do
    let q ← ofExpr role.element e
    return .keyValue key q :: (← ofMembers role trailing r)
  | .spread p e :: r => do
    match r with
    | [] => if let some c := trailing then emit c.start .commaAfterRest
    | _ => emit p.start .restNotLast
    let arg ←
      match role with
      | .binding | .bindingElement =>
        match e with
        | .ident n => pure (.ident n)
        | e => do
          emit p.start .spreadWithoutName
          pure (.missing e.start)
      | _ => ofExpr role.element e
    if let .withDefault .. := arg then emit p.start .restWithDefault
    return .rest e.place arg :: (← ofMembers role trailing r)
  | .method _ (.mk p ..) :: _ => stop p.start .notAPattern
  | .getter p _ _ :: _ => stop p.start .notAPattern
  | .setter p .. :: _ => stop p.start .notAPattern

end

end Pat

end StepTrace.Script
