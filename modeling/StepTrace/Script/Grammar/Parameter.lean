import StepTrace.Script.Grammar.Lists

/-!
Keys of properties, patterns of declarations, and the parameters of functions.
-/
namespace StepTrace.Script.Grammar

open Parse

/-! ### Keys -/

/-- The key of a property. Inside it no JSX is read. -/
def key (g : Grammar) : Parse Key :=
  within (fun s => { s with inPropertyName := true }) do
    let start ← pos
    let t ← required
    match t with
    | .string v raw =>
      bump
      return .literal (← placeFrom start) (.string v raw)
    | .number raw =>
      bump
      return .literal (← placeFrom start) (.number raw)
    | .bigint raw =>
      bump
      return .literal (← placeFrom start) (.bigint raw)
    | .lbracket =>
      bump
      let inner ← pos
      let first ← withIn true g.assign
      let rest ← if ← isTyped then
          many do
            if ← eat .comma then some <$> withIn true g.assign else return none
        else pure []
      let e ← if rest.isEmpty then pure first else do
          emit inner .commaInKey
          pure (.sequence (← placeFrom inner) (first :: rest))
      expect .rbracket
      return .computed (← placeFrom start) e
    | t =>
      match t.word? with
      | some w =>
        bump
        return .name ⟨← placeFrom start, w⟩
      | none =>
        unexpected "identifier, string literal, numeric literal or [ for the computed key"

/-- Where a key was read. -/
def keyStart : Key → Nat
  | .name n => n.place.start
  | .literal p _ | .computed p _ => p.start

/-! ### Declared patterns -/

/-- A declared pattern with a value to fall back on. -/
def bindingElement (g : Grammar) : Parse Pat := do
  let start ← pos
  let left ← g.binding false
  if ← eat (.assign .set) then
    let right ← withIn true g.assign
    if (← setting).inDeclare then emit start .ambientDefault
    return .withDefault (← placeFrom start) left right
  return left

/-- What has been read of a list in which a rest element has to be the last. -/
structure RestList (α : Type) where
  items : List α
  rest : Option Nat
deriving Inhabited

/-- Notes a rest element that something follows. -/
def RestList.noteEarlyRest {α : Type} (l : RestList α) (cause : Cause) : Parse Unit := do
  if let some at_ := l.rest then emit at_ cause

/-- A comma after an element, unless the list ends. -/
def commaUnless (close : Token) (isRest : Bool) : Parse Unit := do
  unless ← at_ close do
    expect .comma
    if isRest && (← at_ close) then emit (← previous).start .commaAfterRest

def arrayPattern (g : Grammar) : Parse Pat := do
  let start ← pos
  bump
  let l ← grow (fun (l : RestList Pat) => do
    if (← atEnd) || (← at_ .rbracket) then return none
    l.noteEarlyRest .restNotLast
    if ← eat .comma then return some { l with items := .elision :: l.items }
    let start ← pos
    if ← eat .ellipsis then
      let arg ← g.binding false
      let p ← placeFrom start
      commaUnless .rbracket true
      return some ⟨.rest p arg :: l.items, some start⟩
    else
      let q ← bindingElement g
      commaUnless .rbracket false
      return some { l with items := q :: l.items }) ⟨[], none⟩
  expect .rbracket
  let p ← placeFrom start
  if (← setting).inDeclare then
    let _ ← eat .question
  return .array p l.items.reverse

def patProperty (g : Grammar) : Parse PatProperty := do
  let start ← pos
  if ← eat .ellipsis then
    let arg ← g.binding false
    return .rest (← placeFrom start) arg
  let k ← key g
  if ← eat .colon then
    return .keyValue k (← bindingElement g)
  match k with
  | .name n =>
    let value ←
      if ← eat (.assign .set) then some <$> withIn true g.assign else pure none
    return .shorthand (← placeFrom start) n value
  | _ => unexpected "an identifier"

/-- Checks the place and the form of the rest element of an object pattern. -/
def checkObjectRest (trailing : Option Nat) : List PatProperty → Parse Unit
  | [] => return
  | [.rest p arg] => do
    match arg with
    | .ident _ => if let some c := trailing then emit c .commaAfterRest
    | _ => stop p.start .spreadWithoutName
  | .rest p _ :: r => do
    emit p.start .restNotLast
    checkObjectRest trailing r
  | _ :: r => checkObjectRest trailing r

def objectPattern (g : Grammar) : Parse Pat :=
  within (fun s => { s with colonEndsCondition := false }) do
    let start ← pos
    bump
    let (_, trailing, items) ← grow (fun ((done, trailing, items) :
        Bool × Option Nat × List PatProperty) => do
      if done then return none
      if ← eat .rbrace then return some (true, trailing, items)
      let m ← patProperty g
      if ← at_ .rbrace then return some (false, trailing, m :: items)
      expect .comma
      let trailing ← if ← at_ .rbrace then some <$> (Span.start <$> previous) else pure trailing
      return some (false, trailing, m :: items)) (false, none, [])
    let p ← placeFrom start
    checkObjectRest trailing items.reverse
    if (← setting).inDeclare then
      let _ ← eat .question
    return .object p items.reverse

/-- A declared pattern: a name, or one that takes an array or an object apart. -/
def bindingPattern (g : Grammar) (noLet : Bool) : Parse Pat := do
  let t ← required
  match t with
  | .lbracket => arrayPattern g
  | .lbrace => objectPattern g
  | t =>
    if t.isWord then .ident <$> bindingIdent noLet
    else unexpected "yield, an identifier, [ or \x7b"

/-! ### Parameters -/

/-- A question mark after a parameter, which goes with a name or a pattern that has no default. -/
def optionalMark (q : Pat) : Parse Bool := do
  unless ← isTyped <&&> eat .question do return false
  match q with
  | .withDefault .. =>
    unless (← setting).inDeclare do stop (← previous).start .optionalPattern
    return false
  | _ => return true

/-- A parameter that is no rest parameter, without its decorators. -/
def parameterPattern (g : Grammar) : Parse Pat := do
  let start ← pos
  let modified ← anyModifier
  let q ← bindingElement g
  let optional ← optionalMark q
  if ← isTyped <&&> typeAnnotation? g then
    if let .withDefault .. := q then emit q.start .typeAfterDefault
  let q ←
    if ← eat (.assign .set) then
      if optional then emit q.start .optionalWithDefault
      let right ← g.assign
      if (← setting).inDeclare then emit start .ambientDefault
      pure (.withDefault (← placeFrom start) q right)
    else pure q
  if modified then emit start .parameterProperty
  return q

/-- A rest parameter after its dots. -/
def restParameter (g : Grammar) (start : Nat) : Parse Pat := do
  let arg ← g.binding false
  let arg ←
    if ← eat (.assign .set) then
      let right ← g.assign
      emit arg.start .restWithDefault
      pure (.withDefault (← placeFrom start) arg right)
    else pure arg
  let typed ← isTyped
  if typed then
    let _ ← typeAnnotation? g
  let p ← placeFrom start
  if typed then
    if ← eat .question then emit (← previous).start .restOptional
  return .rest p arg

/-- A rest parameter of a constructor after its dots. It has no default. -/
def constructorRest (g : Grammar) (start : Nat) : Parse Pat := do
  let arg ← g.binding false
  let _ ← isTyped <&&> typeAnnotation? g
  return .rest (← placeFrom start) arg

/-- Parameters up to the closing parenthesis; `rest` reads a rest parameter after its dots, and `one` one
that is none. -/
def parameterList (g : Grammar) (rest : Nat → Parse Pat) (one : Nat → List Expr → Parse Param) :
    Parse (List Param) := do
  let l ← grow (fun (l : RestList Param) => do
    if (← atEnd) || (← at_ .rparen) then return none
    l.noteEarlyRest .restNotLastParameter
    let start ← pos
    let ds ← decorators g false
    let patStart ← pos
    if ← eat .ellipsis then
      let q ← rest patStart
      let p ← placeFrom start
      commaUnless .rparen true
      return some ⟨.mk p ds false q :: l.items, some patStart⟩
    else
      let q ← one start ds
      commaUnless .rparen false
      return some { l with items := q :: l.items }) ⟨[], none⟩
  return l.items.reverse

def formalParameters (g : Grammar) : Parse (List Param) :=
  parameterList g (restParameter g) fun start ds => do
    let q ← parameterPattern g
    return .mk (← placeFrom start) ds false q

/-- Parameters of a constructor, which may declare properties of the object. -/
def constructorParameters (g : Grammar) : Parse (List Param) :=
  parameterList g (constructorRest g) fun start ds => do
    let typed ← isTyped
    let access ← if typed then accessModifier? else pure false
    let override ← if typed then Option.isSome <$> modifier? ["override"] false else pure false
    let readonly ← if typed then Option.isSome <$> modifier? ["readonly"] false else pure false
    let isProperty := access || override || readonly
    let q ← parameterPattern g
    if isProperty then
      match q with
      | .ident _ | .withDefault .. => pure ()
      | q => stop q.start .parameterPropertyPattern
    return .mk (← placeFrom start) ds isProperty q

/-- Parameters are simple if each is a name and no more. -/
def areSimple (ps : List Param) : Bool :=
  ps.all fun (.mk _ _ _ q) => q.isIdent

/-- A parameter that says what `this` is has no value. -/
def isThis : Param → Bool
  | .mk _ _ _ (.ident n) => n.text == "this"
  | _ => false

/-! ### Parameters read as expressions -/

/-- What stands between parentheses before it is known whether an arrow follows: an expression,
perhaps spread, or what can only be a pattern. -/
inductive ParenItem where
  | expr (e : Expr)
  | pat (q : Pat)

/-- Notes names that strict code must not bind. -/
def checkStrictNames (q : Pat) : Parse Unit :=
  go 64 q
where
  go : Nat → Pat → Parse Unit
    | 0, _ => return
    | n + 1, q => do
      match q with
      | .ident x => if isEvalOrArguments x.text then noteForModule x.place.start .bindsEvalOrArguments
      | .array _ items => items.forM (go n)
      | .rest _ arg => go n arg
      | .object _ members =>
        members.forM fun
          | .keyValue _ v => go n v
          | .rest _ v => go n v
          | .shorthand _ x _ =>
            if isEvalOrArguments x.text then noteForModule x.place.start .bindsEvalOrArguments
            else return
      | .withDefault _ target _ => go n target
      | _ => return

/-- Reads the items between parentheses as parameters. -/
def parametersOfItems (trailing : Option Nat) (items : List ParenItem) : Parse (List Pat) := do
  let ps ← go items
  if (← setting).strict then ps.forM checkStrictNames
  return ps
where
  go : List ParenItem → Parse (List Pat)
    | [] => return []
    | [.expr (.spread p e)] => do
      if let .assign .. := e then emit p.start .restWithDefault
      if let some c := trailing then emit c .commaAfterRest
      return [.rest e.place (← Pat.ofExpr .binding e)]
    | [.pat (.rest p q)] => do
      if let some c := trailing then emit c .commaAfterRest
      return [.rest p q]
    | .expr (.spread p _) :: r => do
      emit p.start .restNotLastParameter
      go r
    | .pat (.rest p _) :: r => do
      emit p.start .restNotLastParameter
      go r
    | .expr e :: r => do
      let q ← Pat.ofExpr .binding e
      return q :: (← go r)
    | .pat q :: r => return q :: (← go r)

end StepTrace.Script.Grammar
