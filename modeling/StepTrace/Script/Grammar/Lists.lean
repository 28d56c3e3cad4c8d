import StepTrace.Script.Grammar.Pattern

/-!
Lists between brackets: arguments of a call, arguments of a type, decorators; and the annotations and
modifiers of TypeScript that stand at a name.
-/
namespace StepTrace.Script.Grammar

open Parse

/-! ### Arguments -/

/-- An expression, or one that is spread. -/
def exprOrSpread (g : Grammar) : Parse Expr := do
  let start ← pos
  if ← eat .ellipsis then
    let e ← withIn true g.assign
    return .spread (← placeFrom start) e
  else g.assign

/-- The arguments of a call with their parentheses. No comma may end those of `import`, unless a second
one of them has a meaning. -/
def arguments (g : Grammar) (isImport : Bool) : Parse (List Expr) :=
  within (fun s => { s with colonEndsCondition := false }) do
    let start ← pos
    expect .lparen
    let items ← grow (fun (items : List Expr) => do
      if (← atEnd) || (← at_ .rparen) then return none
      unless items.isEmpty do
        expect .comma
        if ← at_ .rparen then
          if isImport && !(← isTyped) then stop start .importTrailingComma
          return none
      let e ← withIn true (exprOrSpread g)
      return some (e :: items)) []
    expect .rparen
    return items.reverse

/-! ### Types at a place -/

/-- Reads a list up to its end, with commas between the elements and perhaps after the last. -/
def delimited {α : Type} (atListEnd : Parse Bool) (element : Parse α) : Parse (List α) := do
  let (_, items) ← grow (fun ((done, items) : Bool × List α) => do
    if done || (← atListEnd) then return none
    let a ← element
    if ← eat .comma then return some (false, a :: items)
    if ← atListEnd then return some (true, a :: items)
    expect .comma
    return some (false, a :: items)) (false, [])
  return items.reverse

/-- Reads under the outermost enclosure only. -/
def withoutEnclosures {α : Type} (p : Parse α) : Parse α := do
  let before := (← get).enclosures
  modify fun s => { s with enclosures := s.enclosures.getLast?.toList }
  let back : Parse Unit := modify fun s => { s with enclosures := before }
  try
    let a ← p
    back
    return a
  catch e =>
    back
    throw e

/-- Says whether an expression may start after the token at hand. -/
def setExprAllowed (allowed : Bool) : Parse Unit :=
  modify fun s => { s with exprAllowed := allowed }

/-- Takes one `<`, also from the front of `<<`. -/
def expectOpenAngle : Parse Unit := do
  match ← lexeme with
  | some ⟨.ok (.binary .shiftLeft), sp, b, text⟩ =>
    modify fun s => { s with
      current := some ⟨.ok (.binary .lt), ⟨sp.start + 1, sp.stop⟩, b, text.drop 1⟩
      previous := ⟨sp.start, sp.start + 1⟩ }
  | _ => expect (.binary .lt)

/-- Arguments of a type, in angle brackets. -/
def typeArguments (g : Grammar) : Parse Unit := do
  let _ ← inType (withoutEnclosures do
    expectOpenAngle
    delimited (at_ (.binary .gt)) g.type)
  setExprAllowed false
  expect (.binary .gt)

/-- The type after a colon. -/
def typeAnnotation (g : Grammar) : Parse Unit :=
  inType do
    bump
    g.type

/-- The type after a colon, if a colon is at hand. -/
def typeAnnotation? (g : Grammar) : Parse Bool := do
  if ← at_ .colon then
    typeAnnotation g
    return true
  else return false

/-! ### Modifiers -/

/-- After the word at hand, what it would modify follows on the same line. -/
def canFollowModifier : Parse Bool := do
  bump
  if ← breakBefore then return false
  match ← token with
  | some t =>
    return t.isWord || match t with
      | .lbracket | .lbrace | .ellipsis | .hash | .binary .mul | .string .. | .number _ | .bigint _ =>
        true
      | _ => false
  | none => return false

/-- Takes one of the given modifiers if it modifies what follows. -/
def modifier? (allowed : List String) (stopAtStaticBlock : Bool) : Parse (Option String) := do
  unless ← isTyped do return none
  let w ←
    match ← required with
    | .ident w | .escaped w => pure w
    | .keyword .inKw => pure "in"
    | .keyword .constKw => pure "const"
    | _ => return none
  unless allowed.contains w do return none
  if ← pure (stopAtStaticBlock && w == "static") <&&> isAhead .lbrace then return none
  attempt do
    if ← canFollowModifier then return some w else return none

/-- Takes a modifier of a parameter where there may be none. -/
def anyModifier : Parse Bool := do
  unless ← isTyped do return false
  match ← token with
  | some (.ident w) =>
    if ← pure (["public", "protected", "private", "readonly"].contains w) <&&>
        (isWordAhead <||> isAhead .lbrace <||> isAhead .lbracket) then
      let _ ← modifier? ["public", "protected", "private", "readonly"] false
      return true
    else return false
  | _ => return false

/-- A modifier of access. `in` and `out` are no such modifiers. -/
def accessModifier? : Parse Bool := do
  match ← modifier? ["public", "protected", "private", "in", "out"] false with
  | some w =>
    if w == "in" || w == "out" then
      emit (← previous).start (.modifierOnlyOnDeclared w)
      return false
    else return true
  | none => return false

/-! ### Decorators -/

/-- A decorator from its `@` on. -/
def decorator (g : Grammar) : Parse Expr := do
  let start ← pos
  bump
  let start' ← pos
  let e ←
    if ← eat .lparen then
      let e ← g.expr
      expect .rparen
      pure (.paren (some ⟨start, ← lastPos⟩) e)
    else
      let name ← ident false false
      g.subscripts false true (.ident name)
  let typed ← if (← isTyped) && (← at_ (.binary .lt)) then
      typeArguments g
      pure true
    else pure false
  if typed || (← at_ .lparen) then
    let args ← arguments g false
    return .call (← placeFrom start') .plain e args
  else return e

/-- Decorators; `export` may follow them in some places only. -/
def decorators (g : Grammar) (exportAllowed : Bool) : Parse (List Expr) := do
  let start ← pos
  let ds ← many do
    if ← at_ .atSign then some <$> decorator g else return none
  if !ds.isEmpty && (← at_ (.keyword .exportKw)) then
    let s ← setting
    unless s.inClass || s.inFunction do
      unless exportAllowed do stopHere .exportAfterDecorator
      unless ← isTyped do stop start .decoratorBeforeExport
  return ds

end StepTrace.Script.Grammar
