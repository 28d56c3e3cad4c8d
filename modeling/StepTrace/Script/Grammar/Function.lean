import StepTrace.Script.Grammar.Type

/-!
Functions, classes and object literals. What may stand in a body depends on what encloses it, so each
body is read under a setting of its own.
-/
namespace StepTrace.Script.Grammar

open Parse

/-! ### Bodies -/

/-- A statement that is the directive for strict code. -/
def isUseStrict : Stmt → Bool
  | .expr _ (.literal _ (.string _ raw)) => raw == "\"use strict\"" || raw == "'use strict'"
  | _ => false

/-- Statements up to a closing brace, or up to the end of the text. Where directives are allowed, the
first statement may make the rest strict. -/
def body (g : Grammar) (directives top : Bool) (close : Option Token) : Parse (List Stmt) := do
  let before ← setting
  let (_, stmts) ← grow (fun ((first, stmts) : Bool × List Stmt) => do
    match ← lexeme with
    | none =>
      if let some t := close then
        emit (← span).start (.expected t.fixedText (← shown))
      return none
    | some l =>
      if close.isSome && l.token? == close then return none
      let s ← g.stmt true top
      if first && directives && isUseStrict s then setSetting { before with strict := true }
      return some (false, s :: stmts)) (true, [])
  if close.isSome then
    if !(← atEnd) then bump
  setSetting before
  return stmts.reverse

def block (g : Grammar) (directives : Bool) : Parse Block := do
  let start ← pos
  expect .lbrace
  let stmts ← body g directives false (some .rbrace)
  return .mk (← placeFrom start) stmts

/-- Reads what belongs to a function: its labels are its own. -/
def asFunctionBody {α : Type} (isAsync isGenerator isArrow : Bool) (p : Parse α) : Parse α := do
  if (← setting).inDeclare && (← isTyped) && (← at_ .lbrace) then
    emit (← span).start .ambientImplementation
  let before ← get
  let back : Parse Unit := modify fun s => { s with
    labels := before.labels, arrowStart := before.arrowStart
    foundModuleItem := before.foundModuleItem, trailingCommas := before.trailingCommas }
  modify fun s => { s with
    labels := [], arrowStart := none, foundModuleItem := false, trailingCommas := [] }
  try
    let a ← within (fun s => { s with
      inAsync := isAsync, inGenerator := isGenerator, inFunction := true, inStaticBlock := false
      breakAllowed := false, continueAllowed := false, colonEndsCondition := false
      inNonArrowFunction := s.inNonArrowFunction || !isArrow }) p
    back
    return a
  catch e =>
    back
    throw e

/-- An arrow function that starts there and ends here. -/
def arrowFrom (start : Nat) (isAsync : Bool) (ps : List Pat) (b : ArrowBody) : Parse Expr := do
  return .arrow (← placeFrom start) isAsync ps b

/-- A statement that is a text alone, and so may be a directive. -/
def isDirective : Stmt → Bool
  | .expr _ (.literal _ (.string ..)) => true
  | _ => false

/-- A directive for strict code does not go with parameters that are more than names. -/
def checkDirective (isSimple : Bool) (b : Block) : Parse Unit := do
  match (b.stmts.takeWhile isDirective).find? isUseStrict with
  | some (.expr p _) => unless isSimple do emit p.start .directiveWithPatterns
  | _ => return

/-- The body of a function, or none where TypeScript allows a signature alone. -/
def functionBody? (g : Grammar) (isAsync isGenerator isSimple : Bool) : Parse (Option Block) :=
  asFunctionBody isAsync isGenerator false do
    if ← isTyped <&&> notM (at_ .lbrace) <&&> eatStatementEnd then return none
    let b ← withIn true (block g true)
    checkDirective isSimple b
    return some b

/-- The body of an arrow function. -/
def arrowBody (g : Grammar) (isAsync isSimple : Bool) : Parse ArrowBody :=
  asFunctionBody isAsync false true do
    if ← at_ .lbrace then
      let b ← block g false
      checkDirective isSimple b
      return .block b
    else .expr <$> g.assign

/-- Parameters, result and body of a function; `parameters` reads what stands in parentheses. -/
def functionTail (g : Grammar) (start : Nat) (decorators : List Expr)
    (parameters : Parse (List Param)) (isAsync isGenerator : Bool) : Parse Function :=
  within (fun s => { s with inAsync := isAsync, inGenerator := isGenerator }) do
    let _ ← inType (typeParameters? g false true)
    expect .lparen
    let ps ← within (fun s => { s with inParameters := true, inFunction := false }) parameters
    expect .rparen
    let typed ← isTyped
    if typed && (← at_ .colon) then returnType g .colon
    let b ← functionBody? g isAsync isGenerator (areSimple ps)
    if typed && b.isNone then
      for (.mk _ _ _ q) in ps do
        if let .withDefault .. := q then emit q.start .ambientDefault
    return .mk (← placeFrom start) isAsync isGenerator decorators ps b

/-- Whether a function has a name of its own. -/
inductive NameNeed where
  | required
  | optional
  | expression
deriving DecidableEq, Repr, Inhabited

/-- A function from the word `function` on; an `async` before it was passed at `start`. -/
def functionAt (g : Grammar) (start : Nat) (isAsync : Bool) (need : NameNeed)
    (decorators : List Expr) : Parse (Option Ident × Function) := do
  expectKeyword .functionKw
  let isGenerator ← eat (.binary .mul)
  let plain (s : Setting) : Setting := { s with superAllowed := false, inClassField := false }
  let name ← match need with
    | .expression =>
      within (fun s => { plain s with inAsync := isAsync, inGenerator := isGenerator })
        (bindingIdent? false false)
    | need => within plain (bindingIdent? (need = .required) false)
  let f ← within (fun s => { plain s with colonEndsCondition := false })
    (functionTail g start decorators (formalParameters g) isAsync isGenerator)
  if need = .expression && f.body.isNone then unexpected "\x7b"
  return (name, f)

/-- A function, with an `async` before it or not. -/
def function (g : Grammar) (need : NameNeed) (decorators : List Expr) :
    Parse (Option Ident × Function) := do
  let start ← pos
  let isAsync ← eatWord "async"
  functionAt g start isAsync need decorators

/-! ### Classes -/

/-- The method at hand starts with its parameters. -/
def atMethod : Parse Bool := do
  if ← at_ .lparen then return true
  return (← isTyped) && (← atOne [.binary .lt, .jsxTagStart])

/-- A property ends here, or its type or value follows. -/
def atProperty (lineEnd : Bool) : Parse Bool := do
  if (← isTyped) && (← atOne [.bang, .colon, .question]) then return true
  if ← atOne [.assign .set, .rbrace] then return true
  if lineEnd then atStatementEnd else at_ .semi

/-- What was read of a member of a class before its key. -/
structure MemberHead where
  start : Nat
  decorators : List Expr
  hasAccess : Bool := false
  isStatic : Bool := false
  isAbstract : Bool := false
  isOverride : Bool := false
  isReadonly : Bool := false
  isDeclare : Bool := false
  isAccessor : Bool := false

/-- A private name as a key is a name that starts with a hash sign. -/
def isPrivateKey : Key → Bool
  | .name n => n.text.startsWith "#"
  | _ => false

def isNamed (w : String) : Key → Bool
  | .name n => n.text == w
  | .literal _ (.string v _) => v == w
  | _ => false

def classKey (g : Grammar) : Parse Key := do
  if ← at_ .hash then
    let n ← privateName
    if n.text = "#constructor" then emit n.place.start .privateConstructor
    return .name n
  else key g

def classMethod (g : Grammar) (h : MemberHead) (k : Key) (kind : MethodKind)
    (parameters : Parse (List Param)) (isAsync isGenerator : Bool) : Parse ClassMember := do
  let f ← within (fun s => { s with
      inClassField := false, superAllowed := true, inPropertyName := false })
    (functionTail g h.start h.decorators parameters isAsync isGenerator)
  let p ← placeFrom h.start
  let hasBody := match f with | .mk _ _ _ _ _ b => b.isSome
  if isPrivateKey k then
    if h.hasAccess then emit h.start .modifierOnPrivate
  else if h.isAbstract && hasBody then emit h.start .abstractImplementation
  return .method p k kind h.isStatic (h.isAbstract || !hasBody) f

def classProperty (g : Grammar) (h : MemberHead) (k : Key) (isOptional : Bool) :
    Parse ClassMember := do
  if isNamed "constructor" k && !isPrivateKey k then stop (keyStart k) .fieldNamedConstructor
  if isPrivateKey k then
    if h.isDeclare then emit (keyStart k) (.privateNameModifier "declare")
    if h.isAbstract then emit (keyStart k) (.privateNameModifier "abstract")
  if (← isTyped) && !isOptional then
    let _ ← eat .bang
  let _ ← typeAnnotation? g
  within (fun s => { s with includeIn := true, inClassField := true, superAllowed := true }) do
    let value ← if ← eat (.assign .set) then some <$> g.assign else pure none
    unless ← eatStatementEnd do emit (← span).start .expectedSemicolon
    unless h.isAccessor do
      if isPrivateKey k then
        if h.hasAccess then emit h.start .modifierOnPrivate
      else if h.isAbstract && value.isSome then emit h.start .abstractInitializer
    return .property (← placeFrom h.start) k h.isStatic (h.isAbstract || h.isDeclare) h.isAccessor
      value h.decorators

/-- Parameters of a setter or a getter, which are counted without `this`. -/
def accessorParameters (g : Grammar) (kind : MethodKind) (reportAt : Nat) : Parse (List Param) := do
  let ps ← formalParameters g
  let count := (ps.filter (!isThis ·)).length
  match kind with
  | .getter => if count ≠ 0 then emit reportAt .getterParameters
  | .setter =>
    if count ≠ 1 then emit reportAt .setterParameters
    match ps with
    | .mk _ _ _ (.rest p _) :: _ => emit p.start .restInSetter
    | _ => pure ()
  | .method => pure ()
  return ps

/-- A constructor after its key. -/
def constructor (g : Grammar) (h : MemberHead) (k : Key) (staticAt modifierAt : Option Nat) :
    Parse ClassMember := do
  let typed ← isTyped
  if typed && h.isOverride then emit h.start (.modifierOnConstructor "override")
  if typed && (← at_ (.binary .lt)) then
    let here ← pos
    if ← isAhead (.binary .gt) then
      bump
      let closing ← pos
      bump
      emit here .emptyTypeParameters
      emit closing .constructorTypeParameters
    else
      for p in ← typeParameters g false true do emit p .constructorTypeParameters
  expect .lparen
  let ps ← constructorParameters g
  expect .rparen
  if typed && (← at_ .colon) then
    let here ← inType do
      bump
      let here ← pos
      g.type
      return here
    emit here .constructorReturnType
  let b ← functionBody? g false false (areSimple ps)
  if b.isNone then
    for (.mk p _ isProperty q) in ps do
      if isProperty then emit p.start .parameterProperty
      if let .withDefault .. := q then emit q.start .ambientDefault
  if let some at_ := staticAt then emit at_ (.modifierOnConstructor "static")
  if h.isAbstract then
    if let some at_ := modifierAt then emit at_ .abstractNotAllowed
  return .ctor (← placeFrom h.start) k ps b

/-- The modifiers of a member that may come in any order, with the place of the last. -/
def memberModifiers (h : MemberHead) : Parse (MemberHead × Option Nat) :=
  grow (fun ((h, _) : MemberHead × Option Nat) => do
    match ← modifier? ["abstract", "readonly", "override", "static"] true with
    | none => return none
    | some w =>
      let here := (← previous).start
      let h' ← match w with
        | "abstract" =>
          if h.isAbstract then emit here (.modifierTwice w)
          else if h.isOverride then emit here (.modifierOrder "abstract" "override")
          pure { h with isAbstract := true }
        | "override" =>
          if h.isOverride then emit here (.modifierTwice w)
          else if h.isReadonly then emit here (.modifierOrder "override" "readonly")
          else if h.isDeclare then emit here (.modifierWith "override" "declare")
          else if !(← setting).hasSuperClass then emit here .overrideWithoutParent
          pure { h with isOverride := true }
        | "readonly" =>
          if h.isReadonly then emit here (.modifierTwice w)
          pure { h with isReadonly := true }
        | _ =>
          if h.isOverride then emit here (.modifierOrder "static" "override")
          pure { h with isStatic := true }
      return some (h', some here)) (h, none)

/-- A member of a class after its modifiers. -/
def memberAfterHead (g : Grammar) (h : MemberHead) (staticAt modifierAt declareAt : Option Nat) :
    Parse ClassMember := do
  let typed ← isTyped
  if ← eat (.binary .mul) then
    let k ← classKey g
    if h.isReadonly then emit h.start .readonlyMethod
    if isNamed "constructor" k then emit h.start .generatorConstructor
    return ← classMethod g h k .method (formalParameters g) false true
  let readonlyHere := (← previous).start
  let k ←
    if h.isReadonly && (← atOne [.bang, .colon]) then
      pure (Key.name ⟨some ⟨readonlyHere, readonlyHere + 8⟩, "readonly"⟩)
    else classKey g
  let isOptional ← if typed then eat .question else pure false
  if ← atMethod then
    if let some at_ := declareAt then emit at_ .declareOnMethod
    if h.isReadonly then stop h.start .readonlyMethod
    if isNamed "constructor" k && !isPrivateKey k && !(!typed && h.isStatic) then
      return ← constructor g h k staticAt modifierAt
    return ← classMethod g h k .method (formalParameters g) false false
  let starOnNextLine := (← breakBefore) && (← at_ (.binary .mul))
  let accessor? : Option MethodKind ←
    match k with
    | .name n =>
      if (n.text == "get" || n.text == "set") && !(← atProperty false) && !starOnNextLine then
        pure (some (if n.text == "get" then .getter else .setter))
      else pure none
    | _ => pure none
  if accessor?.isNone && (← atProperty true) then return ← classProperty g h k isOptional
  if isNamed "async" k && (match k with | .name _ => true | _ => false) && !(← breakBefore) then
    if (← modifier? ["override"] false).isSome then
      emit (← previous).start (.modifierOrder "override" "async")
    let isGenerator ← eat (.binary .mul)
    let k ← classKey g
    if isNamed "constructor" k then stop (keyStart k) .asyncConstructor
    if h.isReadonly then stop h.start .readonlyMethod
    if typed then
      let _ ← eat .question
    return ← classMethod g h k .method (formalParameters g) true isGenerator
  if let some kind := accessor? then
    let here := keyStart k
    let k ← classKey g
    if h.isReadonly then emit here .readonlyAccessor
    if isNamed "constructor" k then emit here .accessorConstructor
    return ← classMethod g h k kind (accessorParameters g kind here) false false
  unexpected "* for generator, private key, identifier or async"

/-- A word that was passed is itself the key of a member, and no modifier. -/
def wordAsKey? (g : Grammar) (h : MemberHead) (w : String) (start : Nat) (lineEnd : Bool) :
    Parse (Option ClassMember) := do
  let k := Key.name ⟨← placeFrom start, w⟩
  let optional : Parse Bool := do
    if ← isTyped then eat .question else return false
  if ← atMethod then
    let _ ← optional
    return some (← classMethod g h k .method (formalParameters g) false false)
  if ← atProperty lineEnd then
    let o ← optional
    return some (← classProperty g h k o)
  return none

/-- A block that is run when the class is made, after the word `static`. It takes no modifiers. -/
def staticBlock (g : Grammar) (start : Nat) : Parse ClassMember := do
  let b ← within (fun s => { s with
      inStaticBlock := true, inClassField := true, usingAllowed := true, superAllowed := true })
    (block g false)
  return .staticBlock (← placeFrom start) b

/-- A member of a class, and whether it is abstract. -/
def classMember (g : Grammar) : Parse (ClassMember × Bool) := do
  let start ← pos
  let ds ← decorators g false
  let typed ← isTyped
  let h : MemberHead := { start := start, decorators := ds }
  let declareStart ← pos
  let declared ← if typed then eatWord "declare" else pure false
  if declared then
    if let some m ← wordAsKey? g h "declare" declareStart true then return (m, false)
  let access ← accessModifier?
  let h := { h with hasAccess := access }
  let declareLate ← pos
  let declared' ← if typed && !declared then eatWord "declare" else pure false
  if declared' then
    if let some m ← wordAsKey? g h "declare" declareLate true then return (m, false)
  let h := { h with isDeclare := declared || declared' }
  let declareAt := if h.isDeclare then some start else none
  let accessorStart ← pos
  let accessor ← if typed then eatWord "accessor" else pure false
  if accessor then
    if let some m ← wordAsKey? g h "accessor" accessorStart true then return (m, false)
  let staticStart ← pos
  let isStatic ← eatWord "static"
  if isStatic && !(← at_ .lbrace) then
    if let some m ← wordAsKey? g h "static" staticStart false then return (m, false)
  let (h, modifierAt) ← memberModifiers { h with isStatic := isStatic }
  let accessorLate ← if typed && !accessor then eatWord "accessor" else pure false
  let h := { h with isAccessor := accessor || accessorLate }
  let staticAt := if isStatic then some staticStart else none
  if h.isStatic && (← at_ .lbrace) then
    if let some at_ := declareAt then emit at_ .modifierNotAllowed
    if access then emit (← span).start .modifierNotAllowed
    return (← staticBlock g start, false)
  if ← atWord "static" <&&> isAhead .lbrace then
    if let some at_ := modifierAt then emit at_ .modifierNotAllowed
    if let some at_ := staticAt then emit at_ .modifierNotAllowed
    bump
    return (← staticBlock g start, false)
  if typed && !h.isAbstract && !h.isOverride && !access then
    if ← indexSignature? g then
      return (.property none (.name ⟨none, ""⟩) false true false none [], false)
  let m ← memberAfterHead g h staticAt modifierAt declareAt
  return (m, h.isAbstract)

/-- What was read of the body of a class. -/
structure MemberList where
  members : List ClassMember := []
  hasConstructor : Bool := false
  /-- Where abstract members start. -/
  abstractAt : List Nat := []

/-- Members up to the closing brace. Only one constructor may have a body. -/
def classMembers (g : Grammar) : Parse MemberList := do
  let l ← grow (fun (l : MemberList) => do
    if (← atEnd) || (← at_ .rbrace) then return none
    if ← eat .semi then return some { l with members := .empty (some (← previous)) :: l.members }
    let (m, isAbstract) ← classMember g
    let l := { l with members := m :: l.members }
    match m with
    | .ctor p _ _ (some _) =>
      let inDeclare := (← setting).inDeclare
      if l.hasConstructor && !inDeclare then emit p.start .repeatedConstructor
      return some { l with hasConstructor := l.hasConstructor || !inDeclare }
    | .method p .. | .property p .. =>
      return some (if isAbstract then { l with abstractAt := p.start :: l.abstractAt } else l)
    | _ => return some l) {}
  return { l with members := l.members.reverse, abstractAt := l.abstractAt.reverse }

/-- Classes or interfaces after `extends` or `implements`. -/
def heritage (g : Grammar) : Parse (List Nat) := do
  let one : Parse Nat := do
    let start ← pos
    let e ← g.subscripts true true (.ident (← propertyName))
    match e with
    | .ident _ | .member _ .plain .. | .ascribed _ .instantiation _ => pure ()
    | _ => emit start .heritageNotName
    if ← at_ (.binary .lt) then typeArguments g
    return start
  let atListEnd : Parse Bool := do
    return (← at_ .lbrace) || (← atWord "implements") || (← at_ (.keyword .extendsKw))
  delimited atListEnd one

/-- The class that a class extends. -/
def parentClass (g : Grammar) : Parse Expr := do
  let e ← g.leftHand
  match e with
  | .ascribed _ .instantiation e => return e
  | e =>
    if (← isTyped) && (← at_ (.binary .lt)) then typeArguments g
    return e

def reservedClassNames : List String :=
  ["any", "unknown", "never", "number", "bigint", "boolean", "string", "symbol", "void", "object"]

/-- A class from the word `class` on. The code of a class is strict. -/
def classAt (g : Grammar) (classStart : Nat) (need : NameNeed) (decorators : List Expr)
    (isAbstract : Bool) : Parse (Option Ident × Class) := do
  let (r, abstractAt) ← within (fun s => { s with inClass := true, strict := true }) do
    expectKeyword .classKw
    let typed ← isTyped
    let name ← bindingIdent? (need = .required) true
    if typed then
      if let some n := name then
        if reservedClassNames.contains n.text then emit n.place.start .className
      let _ ← typeParameters? g true true
    let parent ←
      if ← eatKeyword .extendsKw then
        let e ← parentClass g
        if typed then
          if ← eat .comma then
            for at_ in ← heritage g do emit at_ .extendsMany
        pure (some e)
      else pure none
    if ← eatKeyword .extendsKw then
      emit (← previous).start .extendsTwice
      let _ ← parentClass g
    if typed then
      if ← eatWord "implements" then
        let _ ← heritage g
      if ← eatWord "implements" then
        emit (← previous).start .implementsTwice
        let _ ← heritage g
      if ← eatKeyword .extendsKw then
        emit (← previous).start .extendsAfterImplements
        let _ ← parentClass g
    expect .lbrace
    let l ← within (fun s => { s with hasSuperClass := parent.isSome, superAllowed := true })
      (classMembers g)
    if ← atEnd then emit (← span).start (.expected "\x7d" (← shown))
    else expect .rbrace
    let p ← placeFrom classStart
    return ((name, Class.mk p decorators l.members parent), l.abstractAt)
  unless isAbstract do
    for at_ in abstractAt do emit at_ .abstractOutsideAbstract
  return r

/-! ### Object literals -/

/-- A method of an object literal, after its key. -/
def objectMethod (g : Grammar) (start : Nat) (parameters : Parse (List Param))
    (isAsync isGenerator : Bool) : Parse Function :=
  within (fun s => { s with superAllowed := true, inClassField := false })
    (functionTail g start [] parameters isAsync isGenerator)

/-- A getter, a setter or an asynchronous method, after the word that says so. -/
def objectAccessor (g : Grammar) (start : Nat) (word : String) : Parse Property := do
  let isGenerator ← if word == "async" then eat (.binary .mul) else pure false
  let k ← key g
  let here := keyStart k
  match word with
  | "get" =>
    let .mk _ _ _ _ _ b ← objectMethod g start (accessorParameters g .getter here) false false
    return .getter (← placeFrom start) k (b.getD (.mk none []))
  | "set" =>
    let .mk _ _ _ _ ps b ← objectMethod g start (accessorParameters g .setter here) false false
    let ps := if 2 ≤ ps.length then ps.drop 1 else ps
    let q := match ps with
      | .mk _ _ _ q :: _ => q
      | [] => .missing here
    return .setter (← placeFrom start) k q (b.getD (.mk none []))
  | _ =>
    let f ← objectMethod g start (formalParameters g) true isGenerator
    return .method k f

def property (g : Grammar) : Parse Property := do
  let start ← pos
  if ← eat .ellipsis then
    let e ← withIn true g.assign
    return .spread (← placeFrom start) e
  if ← eat (.binary .mul) then
    let k ← key g
    return .method k (← objectMethod g start (formalParameters g) false true)
  let modified ← anyModifier
  let modifierAt := (← previous).start
  let k ← key g
  let typed ← isTyped
  if typed then
    let known ← atOne [.lparen, .lbracket, .colon, .comma, .question, .assign .set, .binary .mul,
      .binary .lt]
    let startsKey := (← token).any fun
      | .string .. | .number _ | .bigint _ => true
      | t => t.isWord
    let closes := (← at_ .rbrace) && match k with | .name _ => true | _ => false
    unless known || startsKey || closes do
      let here := (← span).start
      emit here .expectedSemicolon
      return .keyValue k (.missing here)
  if ← eat .colon then
    let e ← withIn true g.assign
    return .keyValue k e
  if (typed && (← at_ (.binary .lt))) || (← at_ .lparen) then
    return .method k (← objectMethod g start (formalParameters g) false false)
  match k with
  | .name n =>
    if ← eat .question then emit (← previous).start .optionalMember
    if ← atOne [.assign .set, .comma, .rbrace] then
      if ← eat (.assign .set) then
        let e ← withIn true g.assign
        return .shorthand ⟨← placeFrom start, n.text⟩ (some e)
      return .shorthand n none
    if n.text == "get" || n.text == "set" || n.text == "async" then
      if modified then emit modifierAt .asyncModifier
      objectAccessor g start n.text
    else if typed then
      unexpected
        "... , *,  (, [, :, , ?, =, an identifier, public, protected, private, readonly, <."
    else unexpected "... , *,  (, [, :, , ?, = or an identifier"
  | _ => unexpected "identifier"

def objectLiteral (g : Grammar) : Parse Expr :=
  within (fun s => { s with colonEndsCondition := false }) do
    let start ← pos
    bump
    let (_, trailing, items) ← grow (fun ((done, trailing, items) :
        Bool × Option Span × List Property) => do
      if done then return none
      if ← eat .rbrace then return some (true, trailing, items)
      let m ← property g
      if ← at_ .rbrace then return some (false, trailing, m :: items)
      expect .comma
      let trailing ← if ← at_ .rbrace then some <$> previous else pure trailing
      return some (false, trailing, m :: items)) (false, none, [])
    let p ← placeFrom start
    if let some c := trailing then
      modify fun s => { s with trailingCommas := (start, c) :: s.trailingCommas }
    return .object p items.reverse

end StepTrace.Script.Grammar
