import StepTrace.Script.Grammar.Jsx

/-!
Expressions. What stands between parentheses may turn out to be the parameters of an arrow function;
whether an arrow may follow is kept in the reader as the place where one could start.
-/
namespace StepTrace.Script.Grammar

open Parse

/-! ### Calls and members -/

/-- The link by which a member or a call hangs on what is left of it. -/
def linkTo (e : Expr) (optional : Bool) : Link :=
  if optional then .optional else if e.withoutNonNull.isChain then .chained else .plain

/-- A template that a function is applied to. -/
def taggedTemplate (g : Grammar) (start : Nat) (tag : Expr) : Parse Expr := do
  let (chunks, parts) ←
    within (fun s => { s with colonEndsCondition := false }) (templateParts true (withIn true g.expr))
  if tag.isChain then emit start .templateInChain
  return .tagged (← placeFrom start) tag chunks parts

/-- Takes the question mark of `?.`. -/
def eatOptional : Parse Bool := do
  if ← at_ .question <&&> isAhead .dot then eat .question else return false

/-- `super` is allowed at this place. -/
def checkSuper (e : Expr) : Parse Unit := do
  match e with
  | .superRef p =>
    unless (← setting).superAllowed || (← isTyped) do stop p.start .superAccess
  | _ => return

/-- Type parameters after `async`, and an arrow function after them. -/
def genericAsyncArrow? (g : Grammar) (start : Nat) : Parse (Option Expr) := do
  let head ← attempt do
    let _ ← typeParameters g false true
    expect .lparen
    let ps ← within (fun s => { s with inParameters := true }) (formalParameters g)
    expect .rparen
    if ← at_ .colon then returnType g .colon
    expect .arrow
    return some ps
  match head with
  | none => return none
  | some ps =>
    let params := ps.map fun (.mk _ _ _ q) => q
    let b ← within (fun s => { s with inAsync := true, inGenerator := false })
      (arrowBody g true (areSimple ps))
    return some (← arrowFrom start true params b)

/-- An expression may start with this token. -/
def startsExpr : Token → Bool
  | .ident _ | .escaped _ | .null | .true | .false | .bang | .lparen | .lbrace | .lbracket | .backquote
  | .plusPlus | .minusMinus | .tilde | .string .. | .number _ | .bigint _ | .regex ..
  | .jsxTagStart => true
  | .keyword k =>
    [Keyword.awaitKw, .yieldKw, .functionKw, .newKw, .thisKw, .superKw, .classKw, .importKw,
      .typeofKw, .voidKw, .deleteKw].contains k
  | _ => false

/-- After arguments of a type, what follows neither takes nor compares their instance. -/
def endsInstantiation : Parse Bool := do
  if ← atOne [.binary .lt, .binary .gt, .binary .add, .binary .sub, .lparen, .backquote] then
    return false
  if ← breakBefore then return true
  match ← token with
  | some (.binary _) | none => return true
  | some t => return !startsExpr t

/-- What follows an expression after arguments of a type: a call, a template or nothing more. -/
def afterTypeArguments (g : Grammar) (start : Nat) (e : Expr) (noCall : Bool) :
    Parse (Option (Expr × Bool)) :=
  attempt do
    if !noCall && e.isIdentOf "async" then
      if let some a ← genericAsyncArrow? g start then return some (a, true)
    typeArguments g
    if !noCall && (← at_ .lparen) then
      let args ← arguments g false
      return some (.call (← placeFrom start) (linkTo e false) e args, true)
    else if ← at_ .backquote then
      return some (← taggedTemplate g start e, true)
    else if ← at_ (.assign .set) <||> atWord "as" <||> atWord "satisfies" <||> endsInstantiation then
      return some (.ascribed (← placeFrom start) .instantiation e, false)
    else return none

/-- One member, call or template after an expression, and whether more may follow. -/
def subscript (g : Grammar) (start : Nat) (noCall noComputed : Bool) (e : Expr) :
    Parse (Expr × Bool) := do
  let _ ← lexeme
  let typed ← isTyped
  let special := e.isImport || match e with
    | .superRef _ => true
    | _ => false
  if typed then
    if !(← breakBefore) && (← at_ .bang) then
      setExprAllowed false
      bump
      if e.isImport then stopHere (.nonNullNotAllowed "import")
      match e with
      | .superRef _ => stopHere (.nonNullNotAllowed "super")
      | e => return (.ascribed (← placeFrom start) .nonNull e, true)
    if !special && (← atOne [.binary .lt, .binary .shiftLeft]) then
      if let some r ← afterTypeArguments g start e noCall then return r
  let optional ← eatOptional
  let opensIndex ←
    if noComputed then pure false
    else if ← pure optional <&&> at_ .dot <&&> isAhead .lbracket then
      bump
      bump
      pure true
    else eat .lbracket
  if opensIndex then
    let k ← withIn true g.expr
    expect .rbracket
    checkSuper e
    if special && optional then stop e.start (if noCall then .superCall else .superAccess)
    return (.index (← placeFrom start) (linkTo e optional) e k, true)
  let optionalCall ←
    if optional && (← at_ .dot) then
      if (← isAhead .lparen) || (typed && (← isAhead (.binary .lt))) then
        bump
        pure true
      else pure false
    else pure false
  if optionalCall || (!noCall && (← at_ .lparen)) then
    if typed && (← at_ (.binary .lt)) then typeArguments g
    let args ← arguments g e.isImport
    if special && optional then stopHere .superOptional
    return (.call (← placeFrom start) (linkTo e optional) e args, true)
  if ← eat .dot then
    let n ← memberName
    checkSuper e
    if special && optional then stop e.start (if noCall then .superCall else .superAccess)
    if special && n.text.startsWith "#" then stopHere .superPrivate
    return (.member (← placeFrom start) (linkTo e optional) e n, true)
  if e.isImport then
    if noCall then stopHere .importCall
    expect .lparen
  match e with
  | .superRef _ => stopHere (if noCall then .superCall else .superAccess)
  | e =>
    if ← at_ .backquote then return (← taggedTemplate g start e, true)
    return (e, false)

def subscriptsRule (g : Grammar) (noCall noComputed : Bool) (e : Expr) : Parse Expr := do
  let start := e.start
  let (_, e) ← grow (fun ((done, e) : Bool × Expr) => do
    if done then return none
    let (e, more) ← subscript g start noCall noComputed e
    return some (!more, e)) (false, e)
  return e

/-- A call of `import`, or what the module knows of itself. -/
def importExpr (g : Grammar) (start : Nat) (noCall : Bool) : Parse Expr := do
  let here : Expr := .importRef (← placeFrom start)
  if ← eat .dot then
    modify fun s => { s with foundModuleItem := true }
    let n ← propertyName
    match n.text with
    | "meta" =>
      let p ← placeFrom start
      unless (← setting).canBeModule do emit start .importMetaInScript
      subscriptsRule g noCall false (.metaProperty p .importMeta)
    | "defer" | "source" =>
      subscriptsRule g noCall false (.member (← placeFrom start) .plain here n)
    | _ => unexpected "meta"
  else
    unless (← required) = .lparen do unexpected "`.` or `(`"
    subscriptsRule g noCall false here

/-! ### Operands and assignments -/

/-- An operand. If it is missing before an operator, the reading goes on after the operator. -/
def operandOr (operand : Parse Expr) : Parse Expr := do
  try operand
  catch e =>
    let t ← required
    let here := (← span).start
    match t with
    | .binary _ | .keyword .instanceofKw =>
      emit here .expectedExpression
      return .missing here
    | .keyword .inKw =>
      if (← setting).includeIn then
        emit here .expectedExpression
        return .missing here
      else throw e
    | _ => throw e

/-- The target of an assignment, read again from an expression. -/
def assignTarget (op : AssignOp) (e : Expr) : Parse Pat := do
  if op = .set then
    match ← Pat.ofExpr .target e with
    | .expr e =>
      unless e.isTargetForm do stop e.start .invalidAssignTarget
      return .expr e
    | q => return q
  else
    let typed ← isTyped
    unless e.isSimpleTarget (← setting).strict do
      emit e.start (if typed then .notAssignable else .cannotAssign)
    if let .ident n := e then
      if typed && isEvalOrArguments n.text then noteForModule e.start .usesArguments
    unless e.isTargetForm do stop e.start .invalidAssignTarget
    match e with
    | .ident n => return .ident n
    | e => return .expr e

/-- An assignment after its target, if an operator follows. -/
def finishAssign (g : Grammar) (start : Nat) (e : Expr) : Parse Expr := do
  match ← token with
  | some (.assign op) =>
    let target ← assignTarget op e
    bump
    let right ← g.assign
    return .assign (← placeFrom start) op target right
  | _ => return e

/-- Operands and operators, without a condition or an assignment at the top. -/
def operatorsFrom (g : Grammar) (operand : Parse Expr) : Parse Expr := do
  let left ← operandOr operand
  if left.isArrow then return left
  g.binaryTail left 0

/-! ### Arrow functions and parentheses -/

/-- One item between parentheses, which may be a parameter. -/
def parenItem (g : Grammar) : Parse ParenItem := do
  let start ← pos
  modify fun s => { s with arrowStart := some start }
  let modified ← anyModifier
  let patStart ← pos
  let typed ← isTyped
  let identAt ← atBindable
  let identNext ← if ← at_ .ellipsis then isBindable (← tokenAhead) else pure false
  let arg ←
    if typed && (identAt || identNext) then
      if ← eat .ellipsis then
        let e ← operatorsFrom g g.unary
        pure (.spread (← placeFrom patStart) e)
      else
        let e ← operatorsFrom g g.unary
        match ← token with
        | some (.assign _) => finishAssign g start e
        | _ => pure e
    else exprOrSpread g
  let (optional, arg) ←
    if typed && (← at_ .question) then
      if (← isAhead .comma) || (← isAhead .colon) || (← isAhead .rparen) ||
          (← isAhead (.assign .set)) then
        bump
        let _ ← lexeme
        if let .spread .. := arg then emit (← previous).start .restOptional
        match arg with
        | .ident _ | .spread _ (.ident _) => pure ()
        | e => stop e.start .optionalPattern
        pure (true, arg)
      else match arg with
        | .spread .. => pure (false, arg)
        | test =>
          bump
          let yes ← within (fun s => { s with
            inCondition := true, colonEndsCondition := true, includeIn := true }) g.assign
          expect .colon
          let no ← within (fun s => { s with inCondition := true, colonEndsCondition := false })
            g.assign
          pure (false, .cond (some ⟨start, no.stop⟩) test yes no)
    else pure (false, arg)
  let item ←
    if optional || (typed && (← at_ .colon)) then
      let q ← match arg with
        | .spread _ e => do
          let q ← Pat.ofExpr .binding e
          pure (.rest (← placeFrom patStart) q)
        | e => Pat.ofExpr .binding e
      unless q.isMissing do
        match q with
        | .withDefault .. => pure ()
        | _ =>
          let _ ← typeAnnotation? g
      let q ←
        if ← eat (.assign .set) then
          let right ← g.assign
          pure (.withDefault (← placeFrom patStart) q right)
        else pure q
      pure (.pat q)
    else pure (.expr arg)
  if modified then emit start .parameterProperty
  return item

/-- The items between parentheses, and where a comma stands after the last. An arrow after an item makes a
function of all items so far, if the first of them is a name. -/
def parenItems (g : Grammar) : Parse (List ParenItem × Option Nat) := do
  expect .lparen
  let (items, trailing) ← grow (fun ((items, trailing) : List ParenItem × Option Nat) => do
    if (← atEnd) || (← at_ .rparen) then return none
    let isAsync := (← atWord "async")
    let start ← pos
    let item ← parenItem g
    let items := item :: items
    let items ←
      if ← eat .arrow then
        let startsWithName := match items.getLast? with
          | some (.expr (.ident _)) | some (.pat (.ident _)) | some (.expr (.spread _ (.ident _))) => true
          | _ => false
        if startsWithName then
          let ps ← parametersOfItems none items.reverse
          let b ← arrowBody g isAsync (ps.all Pat.isIdent)
          pure (.expr (← arrowFrom start isAsync ps b) :: items)
        else pure items
      else pure items
    unless ← at_ .rparen do
      expect .comma
      if ← at_ .rparen then return some (items, some (← previous).start)
    return some (items, trailing)) ([], none)
  expect .rparen
  return (items.reverse, trailing)

/-- Object literals with a default value are patterns only. -/
def checkNoDefaults (items : List ParenItem) : Parse Unit :=
  items.forM fun
    | .expr (.object _ members) | .expr (.spread _ (.object _ members)) =>
      members.forM fun
        | .shorthand n (some _) => emit n.place.start .assignedShorthand
        | _ => return
    | _ => return

/-- An arrow function after its parameters and the arrow. A binary operator must not follow a body in
braces. -/
def arrowAfterHead (g : Grammar) (start : Nat) (isAsync : Bool) (ps : List Pat) : Parse Expr := do
  let b ← arrowBody g isAsync (ps.all Pat.isIdent)
  arrowFrom start isAsync ps b

/-- A parenthesized expression, an arrow function, or a call of a function named `async`, whose name
was passed at a given place. -/
def parenOrArrow (g : Grammar) (canBeArrow : Bool) (async : Option Span) : Parse Expr := do
  let start ← match async with
    | some sp => pure sp.start
    | none => pos
  let (items, trailing) ←
    within (fun s => { s with colonEndsCondition := false, includeIn := true }) (parenItems g)
  let hasPattern := items.any fun | .pat _ => true | _ => false
  let endsCondition := (← setting).colonEndsCondition
  let typed ← isTyped
  if typed && (← setting).inCondition && (← at_ .colon) then
    let arrow ← attempt do
      returnType g .colon
      expect .arrow
      let ps ← parametersOfItems none items
      let b ← arrowBody g async.isSome (ps.all Pat.isIdent)
      if endsCondition && !(← at_ .colon) then unexpected "fail"
      return some (← arrowFrom start async.isSome ps b)
    if let some e := arrow then return e
  let hasReturn ←
    if !(← setting).colonEndsCondition && typed && (← at_ .colon) then
      let r ← attempt do
        returnType g .colon
        unless ← at_ .arrow do unexpected "fail"
        return some ()
      pure r.isSome
    else pure false
  if hasPattern || hasReturn || (← at_ .arrow) then
    if ← breakBefore then stop start .breakBeforeArrow
    unless canBeArrow do stop start .arrowNotAllowed
    expect .arrow
    let ps ← parametersOfItems trailing items
    let e ← arrowAfterHead g start async.isSome ps
    match e with
    | .arrow _ _ _ (.block _) =>
      if ← atBinaryOp then
        emit (← span).start .expectedSemicolon
        let e ← g.binaryTail e 0
        unless ← atStatementEnd do emit (← span).start .expectedSemicolon
        return e
      return e
    | e => return e
  checkNoDefaults items
  let es ← items.mapM fun
    | .expr e => pure e
    | .pat q => stop q.start .expectedExpression
  match async with
  | some sp => return .call (← placeFrom start) .plain (.ident ⟨some sp, "async"⟩) es
  | none =>
    match es with
    | [] => stop start .emptyParens
    | [.spread _ e] => stop e.start .spreadInParens
    | [e] => return .paren (← placeFrom start) e
    | first :: rest =>
      for e in es do
        if let .spread _ e := e then stop e.start .spreadInParens
      let last := rest.getLast?.getD first
      return .paren (← placeFrom start) (.sequence (some ⟨first.start, last.stop⟩) es)

/-! ### Primary expressions -/

def arrayLiteral (g : Grammar) : Parse Expr :=
  within (fun s => { s with colonEndsCondition := false }) do
    let start ← pos
    bump
    let items ← many do
      if (← atEnd) || (← at_ .rbracket) then return none
      if ← eat .comma then return some Expr.elision
      let e ← withIn true (exprOrSpread g)
      unless ← at_ .rbracket do
        expect .comma
        if ← at_ .rbracket then
          let c ← previous
          modify fun s => { s with trailingCommas := (start, c) :: s.trailingCommas }
      return some e
    expect .rbracket
    return .array (← placeFrom start) items

/-- A regular expression. The slash at hand is scanned again as its start. -/
def regexLiteral : Parse Expr := do
  let start ← pos
  match ← lexeme with
  | some l =>
    bump
    modify fun s => { s with regexAt := some (l.span.start, l.text), current := none, next := none }
    match ← token with
    | some (.regex body flags) =>
      modify fun s => { s with regexAt := none }
      bump
      let fs := flags.toList
      if fs.any fun c => !"dgimsuvy".toList.contains c then emit start .unknownRegexFlags
      if let some c := fs.find? fun c => 1 < fs.count c then
        emit start (.repeatedRegexFlag (String.ofList [c]))
      return .literal (← placeFrom start) (.regex body flags)
    | _ => stopHere .expectedExpression
  | none => stopHere .expectedExpression

/-- A name, or an arrow function of one parameter without parentheses. -/
def nameOrArrow (g : Grammar) (start : Nat) (canBeArrow : Bool) : Parse Expr := do
  let name ← ident true true
  if canBeArrow && name.text == "async" && !(← breakBefore) && (← atBindable) then
    let s ← setting
    if ← pure s.inForInit <&&> atWord "of" <&&> notM (isAhead .arrow) then
      unless s.inForAwaitInit do emit (← previous).start .asyncInForOf
      return .ident name
    let arg ← bindingIdent false
    if (← isTyped) && arg.text == "as" && !(← at_ .arrow) then
      inType g.type
      return .ascribed (← placeFrom start) .asType (.ident name)
    expect .arrow
    arrowAfterHead g start true [.ident arg]
  else if ← pure canBeArrow <&&> notM breakBefore <&&> eat .arrow then
    if (← setting).strict && isEvalOrArguments name.text then
      noteForModule name.place.start .bindsEvalOrArguments
    arrowAfterHead g start false [.ident name]
  else return .ident name

/-- An expression that starts with `async`, if it is a function or a call. -/
def asyncExpr? (g : Grammar) (canBeArrow : Bool) : Parse (Option Expr) := do
  if (← isAhead (.keyword .functionKw)) && !(← breakAhead) then
    let (name, f) ← function g .expression []
    return some (.func name f)
  if ← pure canBeArrow <&&> isTyped <&&> isAhead (.binary .lt) then
    let r ← attempt do
      let start ← pos
      bump
      genericAsyncArrow? g start
    if let some e := r then return some e
  if ← pure canBeArrow <&&> isAhead .lparen <&&> notM breakAhead then
    bump
    return some (← parenOrArrow g canBeArrow (some (← previous)))
  return none

def primary (g : Grammar) : Parse Expr := do
  let _ ← lexeme
  let start ← pos
  let canBeArrow := (← get).arrowStart = some start
  let fallback : Parse Expr := do
    let ds ← decorators g false
    if ← at_ (.keyword .classKw) then
      let (name, c) ← classAt g start .expression ds false
      return .classExpr name c
    if (← at_ (.keyword .letKw)) || (← atBindable) ||
        ((← isTyped) && (← at_ (.keyword .awaitKw))) then
      return ← nameOrArrow g start canBeArrow
    if ← at_ .hash then
      bump
      let n ← propertyName
      return .ident ⟨← placeFrom start, "#" ++ n.text⟩
    stopHere .expectedExpression
  let literal (v : Literal) : Parse Expr := do
    bump
    return .literal (← placeFrom start) v
  match ← token with
  | some (.keyword .thisKw) =>
    bump
    return .this (← placeFrom start)
  | some (.ident "async") =>
    match ← asyncExpr? g canBeArrow with
    | some e => return e
    | none => fallback
  | some .lbracket => arrayLiteral g
  | some .lbrace => objectLiteral g
  | some (.keyword .functionKw) =>
    let (name, f) ← function g .expression []
    return .func name f
  | some .null => literal .null
  | some .true => literal (.boolean true)
  | some .false => literal (.boolean false)
  | some (.number raw) => literal (.number raw)
  | some (.bigint raw) => literal (.bigint raw)
  | some (.string v raw) => literal (.string v raw)
  | some (.binary .div) | some (.assign .div) => regexLiteral
  | some .backquote =>
    let (chunks, parts) ←
      within (fun s => { s with colonEndsCondition := false })
        (templateParts false (withIn true g.expr))
    return .template (← placeFrom start) chunks parts
  | some .lparen => parenOrArrow g canBeArrow none
  | _ => fallback

/-! ### Left-hand sides -/

/-- Type arguments that make an instance of a generic function without calling it. -/
def instantiation? (g : Grammar) : Parse Bool := do
  let r ← attempt do
    typeArguments g
    if ← endsInstantiation then return some () else return none
  return r.isSome

def constructRule (g : Grammar) : Parse Expr :=
  within (fun s => { s with wholeAngles := true }) do
    let start ← pos
    if ← eatKeyword .newKw then
      if ← eat .dot then
        if ← eatWord "target" then
          let s ← setting
          unless s.inNonArrowFunction || s.inParameters || s.inClass do emit start .newTarget
          return ← subscriptsRule g true false (.metaProperty (← placeFrom start) .newTarget)
        unexpected "target"
      let callee ← g.construct
      if callee.isArrow then return callee
      if callee.isOptional then stop callee.start .chainAfterNew
      if (← isTyped) && (← atOne [.binary .lt, .binary .shiftLeft]) then
        let _ ← attempt do
          within (fun s => { s with wholeAngles := false }) (typeArguments g)
          unless ← at_ .lparen do expect .lparen
          return some ()
      if ← at_ .lparen then
        let args ← arguments g false
        return ← subscriptsRule g true false (.construct (← placeFrom start) callee true args)
      return .construct (← placeFrom start) callee false []
    if ← eatKeyword .superKw then
      return ← subscriptsRule g true false (.superRef (← placeFrom start))
    if ← eatKeyword .importKw then return ← importExpr g start true
    let e ← primary g
    if e.isArrow then return e
    let e ←
      if (← isTyped) && (← at_ (.binary .lt)) then
        if ← instantiation? g then pure (.ascribed (← placeFrom start) .instantiation e)
        else pure e
      else pure e
    subscriptsRule g true false e

/-- A call, a member, or what both start from. -/
def leftHandRule (g : Grammar) : Parse Expr := do
  let start ← pos
  if ← hasJsx then
    match ← required with
    | .jsxTagStart => return ← g.jsxElement
    | .binary .lt => unless ← isAhead .bang do return ← g.jsxElement
    | _ => pure ()
  if ← eatKeyword .superKw then
    return ← subscriptsRule g false false (.superRef (← placeFrom start))
  if ← eatKeyword .importKw then return ← importExpr g start false
  let callee ← constructRule g
  if callee.isArrow then return callee
  let typeArgs ←
    if (← isTyped) && (← atOne [.binary .lt, .binary .shiftLeft]) then
      let r ← attempt do
        typeArguments g
        if ← at_ .lparen then return some () else return none
      pure r.isSome
    else pure false
  if let .construct _ _ false _ := callee then
    if typeArgs then expect .lparen
    return callee
  if ← at_ .lparen then
    let args ← arguments g false
    let e := Expr.call (← placeFrom start) (linkTo callee false) callee args
    return ← subscriptsRule g false false e
  if typeArgs then expect .lparen
  return callee

/-! ### Operators -/

/-- What `await` waits for, from that word on. Outside of asynchronous code the word is a name where
nothing follows it. -/
def awaitExpr (g : Grammar) : Parse Expr := do
  let start ← pos
  bump
  if ← at_ (.binary .mul) then stopHere .awaitStar
  let s ← setting
  let p ← placeFrom start
  if !s.inAsync && ((← atStatementEnd) || (← atOne [.rparen, .rbracket, .comma])) then
    if s.isModule then emit start .awaitInAsync
    return .ident ⟨p, "await"⟩
  if s.inFunction && !s.inAsync then emit (← span).start .awaitInFunction
  if s.inParameters && !s.inFunction then emit start .awaitInParameters
  let arg ← g.unary
  return .await (← placeFrom start) arg

def unaryOp? : Token → Option UnaryOp
  | .keyword .deleteKw => some .delete
  | .keyword .voidKw => some .void
  | .keyword .typeofKw => some .typeof
  | .binary .add => some .plus
  | .binary .sub => some .minus
  | .tilde => some .tilde
  | .bang => some .bang
  | _ => none

def updateOp? : Token → Option UpdateOp
  | .plusPlus => some .increment
  | .minusMinus => some .decrement
  | _ => none

/-- A `delete` whose operand is no member of an object. -/
def checkDelete (arg : Expr) : Parse Unit := do
  if let .ident n := arg then noteForModule n.place.start .deleteIdentifier
  if ← isTyped then
    match arg.withoutParens with
    | .member _ _ (.superRef _) _ | .index _ _ (.superRef _) _ =>
      emit arg.withoutParens.start .deleteNonProperty
    | .member .. | .index .. => return
    | e => emit e.start .deleteNonProperty

/-- An operand with the operators before or after it. A fault in the operand of a unary operator does
not stop the reading. -/
def unaryRule (g : Grammar) : Parse Expr := do
  let start ← pos
  if (← isTyped) && !(← hasJsx) then
    if ← eat (.binary .lt) then
      if ← eatKeyword .constKw then
        expect (.binary .gt)
        let e ← g.unary
        return .ascribed (← placeFrom start) .angleConst e
      inType g.type
      expect (.binary .gt)
      let e ← g.unary
      return .ascribed (← placeFrom start) .angle e
  let t ← token
  if let some op := t.bind updateOp? then
    bump
    let arg ← g.unary
    checkTarget arg false
    return .update (some ⟨start, arg.stop⟩) op true arg
  if let some op := t.bind unaryOp? then
    bump
    let argStart := (← pos) - 1
    let arg ←
      try g.unary
      catch e =>
        emitFault e
        pure (.missing argStart)
    if op = .delete then checkDelete arg
    return .unary (some ⟨start, arg.stop⟩) op arg
  if t = some (.keyword .awaitKw) then return ← awaitExpr g
  let e ← leftHandRule g
  if e.isArrow then return e
  if ← breakBefore then return e
  if let some op := (← token).bind updateOp? then
    checkTarget e false
    bump
    return .update (some ⟨e.start, ← lastPos⟩) op false e
  return e

/-- Two operators of which one must not stand next to the other without parentheses. -/
def isLogical : Expr → Bool
  | .binary _ .logicalAnd .. | .binary _ .logicalOr .. => true
  | _ => false

/-- Takes types after `as` and `satisfies`. -/
def ascriptions (g : Grammar) (strength : Nat) (left : Expr) : Parse Expr := do
  unless ← isTyped do return left
  grow (fun left => do
    if ← breakBefore then return none
    if strength < 7 && (← atWord "as") then
      if ← isAhead (.keyword .constKw) then
        bump
        bump
        return some (.ascribed (← placeFrom left.start) .asConst left)
      typeAfterWord g
      return some (.ascribed (← placeFrom left.start) .asType left)
    if ← atWord "satisfies" then
      typeAfterWord g
      return some (.ascribed (← placeFrom left.start) .satisfies left)
    return none) left

/-- The operator at hand, if it joins operands here. -/
def operatorHere? : Parse (Option BinaryOp) := do
  match ← token with
  | some (.keyword .inKw) => return if (← setting).includeIn then some .inObject else none
  | some (.keyword .instanceofKw) => return some .instanceOf
  | some (.binary op) => return some op
  | _ => return none

def binaryTailRule (g : Grammar) (left : Expr) (strength : Nat) : Parse Expr :=
  grow (fun left => do
    let ascribed ← ascriptions g strength left
    match ← operatorHere? with
    | none => if ascribed.place == left.place then return none else return some ascribed
    | some op =>
      let left' := ascribed
      if op.strength ≤ strength then
        return if left'.place == left.place then none else some left'
      bump
      if op = .exp then
        match left' with
        | .unary .. | .await .. => stopHere .unaryBeforePower
        | _ => pure ()
      let first ← g.unary
      let right ← g.binaryTail first (if op = .exp then op.strength - 1 else op.strength)
      if op = .nullish then
        if isLogical left' then emit left'.start .mixedNullish
        if isLogical right then emit right.start .mixedNullish
      let e := Expr.binary (some ⟨left'.start, right.stop⟩) op left' right
      if op = .logicalAnd || op = .logicalOr then
        if let .binary _ .nullish .. := left' then emit e.start .mixedNullish
      return some e) left

/-- Operands and operators. -/
def binaryRule (g : Grammar) : Parse Expr := do
  let left ← operandOr (unaryRule g)
  if left.isArrow then return left
  binaryTailRule g left 0

/-! ### Conditions and assignments -/

def condRule (g : Grammar) : Parse Expr := do
  let start ← pos
  let test ← binaryRule g
  if test.isArrow then return test
  if ← eat .question then
    let yes ← within (fun s => { s with
      childOfCondition := true, inCondition := true, colonEndsCondition := true, includeIn := true })
      g.assign
    expect .colon
    let no ← within (fun s => { s with
      childOfCondition := true, inCondition := true, colonEndsCondition := false }) g.assign
    return .cond (some ⟨start, no.stop⟩) test yes no
  return test

/-- The token may start an operand of `yield`. -/
def startsYield : Token → Bool
  | .binary .add | .binary .sub | .binary .div | .binary .lt | .assign .div => true
  | t => startsExpr t

def yieldExpr (g : Grammar) : Parse Expr := do
  let start ← pos
  bump
  let s ← setting
  if s.inParameters && !s.inFunction then stop (← previous).start .yieldInParameters
  if ← atStatementEnd then return .yield (← placeFrom start) false none
  let t ← token
  if t ≠ some (.binary .mul) ∧ !t.all startsYield then
    return .yield (← placeFrom start) false none
  let isDelegate ← eat (.binary .mul)
  let arg ← g.assign
  return .yield (← placeFrom start) isDelegate (some arg)

def assignBase (g : Grammar) : Parse Expr := do
  if (← setting).inGenerator && (← at_ (.keyword .yieldKw)) then return ← yieldExpr g
  let t ← required
  let start ← pos
  modify fun s => { s with
    arrowStart := match t with
      | .ident _ | .escaped _ | .lparen | .keyword .yieldKw => some start
      | _ => none }
  let e ← condRule g
  match e with
  | .arrow .. | .cond .. | .binary .. | .unary .. | .update .. => return e
  | e => finishAssign g start e

/-- Leaves the enclosures of a tag that turns out to be none. -/
def leaveTag : Parse Unit :=
  modify fun s => { s with
    enclosures := match s.enclosures with
      | .jsxOpening :: .jsxExpr :: r => r
      | r => r }

def assignRule (g : Grammar) : Parse Expr := do
  let typed ← isTyped
  if typed && (← hasJsx) && (← at_ .jsxTagStart) then
    match ← attempt (some <$> assignBase g) with
    | some e => return e
    | none => leaveTag
  if typed && (← atOne [.binary .lt, .jsxTagStart]) then
    let ahead := match ← tokenAhead with
      | some (.jsxName _) => true
      | t => t.any Token.isWord
    if ahead then
      let arrow ← within (fun s => { s with colonEndsCondition := false }) (attempt do
        let start ← pos
        if ← at_ .jsxTagStart then leaveTag
        let _ ← typeParameters g false true
        match ← assignBase g with
        | .arrow _ isAsync ps b => return some (Expr.arrow (← placeFrom start) isAsync ps b)
        | _ => unexpected "(")
      if let some e := arrow then return e
  assignBase g

def exprRule (g : Grammar) : Parse Expr := do
  let first ← assignRule g
  if ← at_ .comma then
    let rest ← many do
      if ← eat .comma then some <$> g.assign else return none
    let last := rest.getLast?.getD first
    return .sequence (some ⟨first.start, last.stop⟩) (first :: rest)
  return first

end StepTrace.Script.Grammar
