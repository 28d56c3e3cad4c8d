import StepTrace.Script.Grammar.Parameter

/-!
Types. They are read for their form alone, and nothing of them stays in the tree.
-/
namespace StepTrace.Script.Grammar

open Parse

/-! ### Parameters of a type -/

/-- One parameter of a type with its modifiers, bound and default. A declared type may say how it varies
with the parameter; what has a body may ask for the narrowest type of an argument. -/
def typeParameter (g : Grammar) (variance narrowing : Bool) : Parse Nat := do
  let start ← pos
  let (_, _) ← grow (fun ((isIn, isOut) : Bool × Bool) => do
    match ← modifier? ["public", "private", "protected", "readonly", "abstract", "const", "override",
        "in", "out"] false with
    | none => return none
    | some w =>
      let here := (← previous).start
      match w with
      | "const" =>
        unless narrowing do emit here (.modifierOnlyOnFunction w)
        return some (isIn, isOut)
      | "in" =>
        if !variance then emit here (.modifierOnlyOnDeclared w)
        else if isIn then emit here (.modifierTwice w)
        else if isOut then emit here (.modifierOrder "in" "out")
        return some (true, isOut)
      | "out" =>
        if !variance then emit here (.modifierOnlyOnDeclared w)
        else if isOut then emit here (.modifierTwice w)
        return some (isIn, true)
      | w =>
        emit here (.modifierOnTypeParameter w)
        return some (isIn, isOut)) (false, false)
  let _ ← inType propertyName
  inType do
    if ← eat (.keyword .extendsKw) then g.type
  inType do
    if ← eat (.assign .set) then g.type
  return start

/-- Parameters of a type, in angle brackets, and where each of them starts. -/
def typeParameters (g : Grammar) (variance narrowing : Bool) : Parse (List Nat) := do
  inType (withoutEnclosures do
    unless (← at_ (.binary .lt)) || (← at_ .jsxTagStart) do unexpected "< (jsx tag start)"
    bump
    let ps ← delimited (at_ (.binary .gt)) (typeParameter g variance narrowing)
    expect (.binary .gt)
    return ps)

/-- Parameters of a type, if some are at hand. -/
def typeParameters? (g : Grammar) (variance narrowing : Bool) : Parse (List Nat) := do
  if (← isTyped) && (← at_ (.binary .lt)) then typeParameters g variance narrowing
  else return []

/-! ### Signatures -/

/-- What a function returns, after a colon or an arrow: a type or what is known when it is true. -/
def returnType (g : Grammar) (mark : Token) : Parse Unit :=
  inType do
    unless ← eat mark do
      let at_ := (← span).start
      stop at_ (.expected mark.fixedText (← shownOption))
    let asserts ← atWord "asserts" <&&> isBindableAhead
    if asserts then bump
    let isPredicate ← atBindable <&&> isAhead (.ident "is") <&&> notM breakAhead
    if asserts || isPredicate then
      let _ ← propertyName
      if isPredicate then
        bump
        inType g.type
    else inType g.type

/-- Parameters of a signature after its opening parenthesis. -/
def signatureParameters (g : Grammar) : Parse (List Param) := do
  let ps ← formalParameters g
  for (.mk _ _ _ q) in ps do
    match q with
    | .withDefault .. =>
      unexpected
        "an identifier, [ for an array pattern, \x7b for an object patter or ... for a rest pattern"
    | _ => pure ()
  expect .rparen
  return ps

/-- The end of a member of a type. -/
def memberEnd : Parse Unit := do
  unless ← eat .comma do expectStatementEnd

/-- Parameters and result of a callable member of a type. -/
def signature (g : Grammar) : Parse Unit := do
  let _ ← typeParameters? g false true
  expect .lparen
  let _ ← signatureParameters g
  if ← at_ .colon then returnType g .colon
  memberEnd

/-- A member that says what every key of a kind holds. -/
def indexSignature? (g : Grammar) : Parse Bool := do
  unless ← at_ .lbracket do return false
  let ahead ← lookAhead do
    bump
    if ← atBindable then
      bump
      atOne [.colon, .comma]
    else return false
  unless ahead do return false
  bump
  let name ← propertyName
  if ← eat .comma then emit name.place.start .indexSignatureParameters
  else expect .colon
  inType g.type
  expect .rbracket
  let _ ← typeAnnotation? g
  memberEnd
  return true

/-- The key of a member of a type. -/
def typeMemberKey (g : Grammar) : Parse Unit := do
  if ← eat .lbracket then
    let _ ← g.assign
    expect .rbracket
  else
    within (fun s => { s with inPropertyName := true }) do
      match ← required with
      | .number _ | .string .. =>
        let _ ← g.construct
      | t =>
        if t = .hash then emit (← pos) .privateInInterface
        let _ ← memberName

/-- A member of an interface or of a type in braces. -/
def typeMember (g : Grammar) : Parse Unit := do
  if ← atOne [.lparen, .binary .lt] then signature g
  else if (← at_ (.keyword .newKw)) &&
      (← lookAhead do
        bump
        atOne [.lparen, .binary .lt]) then
    bump
    signature g
  else
    let readonly ← modifier? ["readonly"] false
    if ← indexSignature? g then return
    let accessor ← attempt do
      if readonly.isSome then stopHere .readonlyAccessor
      let isGet ← eatWord "get"
      unless isGet do expectWord "set"
      typeMemberKey g
      expect .lparen
      if isGet then
        expect .rparen
        let _ ← typeAnnotation? g
      else
        let ps ← signatureParameters g
        if ps.isEmpty then stopHere .setterParameters
      memberEnd
      return some ()
    if accessor.isSome then return
    typeMemberKey g
    let _ ← eat .question
    if ← atOne [.lparen, .binary .lt] then
      if readonly.isSome then stopHere .readonlyMethod
      signature g
    else
      let _ ← typeAnnotation? g
      memberEnd

/-- The members of an interface or of a type, with the braces. -/
def typeMembers (g : Grammar) : Parse Unit := do
  expect .lbrace
  let _ ← many do
    if ← at_ .rbrace then return none
    typeMember g
    return some ()
  expect .rbrace

/-! ### Names of types -/

/-- A name with dots. -/
def entityName (anyWord : Bool) : Parse (List Ident) := do
  let first ← propertyName
  if first.text == "void" then emit (← lastPos) .expectedSemicolon
  let (_, names) ← grow (fun ((done, names) : Bool × List Ident) => do
    if done then return none
    unless ← eat .dot do return none
    let here ← pos
    unless (← at_ .hash) || (← atWordToken) do
      emit here .missingIdentifier
      return some (true, names)
    let n ← if anyWord then propertyName else ident false false
    return some (false, n :: names)) (false, [first])
  return names.reverse

/-- Arguments of a type on the line of its name. -/
def typeArgumentsHere (g : Grammar) : Parse Unit := do
  if !(← breakBefore) && (← atOne [.binary .lt, .binary .shiftLeft]) then
    within (fun s => { s with wholeAngles := false }) (typeArguments g)

def typeReference (g : Grammar) : Parse Unit := do
  let start ← pos
  let modified ← anyModifier
  let _ ← entityName true
  typeArgumentsHere g
  if modified then emit start .parameterProperty

/-- What a type of a module asks of the import: an object after `with`. -/
def importOptions (g : Grammar) : Parse Unit := do
  expect .lbrace
  expectKeyword .withKw
  expect .colon
  let _ ← g.object
  let _ ← eat .comma
  expect .rbrace

/-- A type of a module that is named by a string. -/
def importType (g : Grammar) : Parse Unit := do
  bump
  expect .lparen
  let _ ← lexeme
  let here := (← span).start
  match ← required with
  | .string .. => bump
  | _ =>
    bump
    emit here .importTypeArgument
  if ← eat .comma <&&> at_ .lbrace then importOptions g
  expect .rparen
  if ← eat .dot then
    let _ ← entityName false
  if ← at_ (.binary .lt) then within (fun s => { s with wholeAngles := false }) (typeArguments g)

/-! ### Types of one term -/

/-- A stretch of a template; one with a faulty escape stops the reading unless the template is
tagged. -/
def templateChunk (tagged : Bool) : Parse String := do
  match ← required with
  | .template raw fault =>
    bump
    if let some f := fault then
      unless tagged do throw f
    return raw
  | _ => unexpected "template token"

/-- A template from its first backquote on; `hole` reads what stands in a hole. -/
def templateParts {α : Type} (tagged : Bool) (hole : Parse α) : Parse (List String × List α) := do
  bump
  let first ← templateChunk tagged
  let rest ← many do
    if ← at_ .backquote then return none
    expect .dollarBrace
    let a ← hole
    expect .rbrace
    return some (a, ← templateChunk tagged)
  expect .backquote
  return (first :: rest.map (·.2), rest.map (·.1))

/-- The braces at hand hold a type that is mapped over keys. -/
def atMappedType : Parse Bool :=
  lookAhead do
    bump
    if ← eat (.binary .add) <||> eat (.binary .sub) then atWord "readonly"
    else
      if ← atWord "readonly" then bump
      unless ← eat .lbracket do return false
      unless ← atBindable do return false
      bump
      at_ (.keyword .inKw)

def mappedType (g : Grammar) : Parse Unit := do
  bump
  if ← atOne [.binary .add, .binary .sub] then
    bump
    expectWord "readonly"
  else
    let _ ← eatWord "readonly"
  expect .lbracket
  let _ ← propertyName
  unless ← eatKeyword .inKw do stopHere (.unexpected (← shownOption) "in")
  g.type
  if ← eatWord "as" then g.type
  expect .rbracket
  if ← atOne [.binary .add, .binary .sub] then
    bump
    expect .question
  else
    let _ ← eat .question
  inType do
    if ← eat .colon then g.type
  expectStatementEnd
  expect .rbrace

/-- One element of a tuple: whether it may be missing, and whether it stands for the rest. -/
def tupleElement (g : Grammar) : Parse (Bool × Bool) := do
  let label ← attempt do
    let rest ← eat .ellipsis
    let _ ← propertyName
    let optional ← eat .question
    expect .colon
    return some (optional, rest)
  if ← eat .ellipsis then
    g.type
    return (false, true)
  g.type
  let optional ← eat .question
  return match label with
    | some (o, r) => (o || optional, r)
    | none => (optional, false)

def tupleType (g : Grammar) : Parse Unit := do
  let start ← pos
  bump
  let items ← delimited (at_ .rbracket) (tupleElement g)
  expect .rbracket
  let afterOptional := items.dropWhile fun (o, _) => !o
  if afterOptional.any fun (o, r) => !o && !r then stop start .requiredAfterOptional

/-- What `this` is known to be. -/
def thisPredicate (g : Grammar) : Parse Unit := do
  if ← eatWord "is" then inType g.type

def keywordTypes : List String :=
  ["void", "null", "any", "boolean", "bigint", "never", "number", "object", "string", "symbol",
    "unknown", "undefined", "intrinsic"]

/-- A type without an array mark after it. -/
def termType (g : Grammar) : Parse Unit := do
  let wordType (w : String) : Parse Unit := do
    if ← pure (w == "asserts") <&&> isAhead (.keyword .thisKw) then
      bump
      bump
      thisPredicate g
    else if ← pure (keywordTypes.contains w) <&&> notM (isAhead .dot) then bump
    else typeReference g
  match ← required with
  | .ident w => wordType w
  | .escaped _ => typeReference g
  | .null => wordType "null"
  | .keyword .voidKw => wordType "void"
  | .keyword .yieldKw | .keyword .awaitKw | .keyword .breakKw => typeReference g
  | .bigint _ | .string .. | .number _ | .true | .false => bump
  | .backquote =>
    let _ ← templateParts false g.type
  | .binary .sub =>
    bump
    match ← required with
    | .number _ | .bigint _ => bump
    | _ => unexpected "numeric literal or bigint literal"
  | .keyword .importKw => importType g
  | .keyword .thisKw =>
    bump
    if !(← breakBefore) && (← atWord "is") then thisPredicate g
  | .keyword .typeofKw =>
    bump
    if ← at_ (.keyword .importKw) then importType g
    else
      let _ ← entityName true
    typeArgumentsHere g
  | .lbrace => if ← atMappedType then mappedType g else typeMembers g
  | .lbracket => tupleType g
  | .lparen =>
    bump
    g.type
    expect .rparen
  | _ =>
    unexpected
      "an identifier, void, yield, null, await, break, a string literal, a numeric literal, true, false, `, -, import, this, typeof, \x7b, [, ("

/-! ### Types of several terms -/

/-- A type with array marks and indices after it. -/
def arrayType (g : Grammar) : Parse Unit := do
  termType g
  let _ ← many do
    if ← breakBefore then return none
    unless ← eat .lbracket do return none
    unless ← eat .rbracket do
      g.type
      expect .rbracket
    return some ()

/-- The name that a condition on types binds, with its bound. -/
def inferType (g : Grammar) : Parse Unit := do
  bump
  let _ ← propertyName
  let _ ← attempt do
    expectKeyword .extendsKw
    within (fun s => { s with noConditionalTypes := true }) g.plainType
    if (← setting).noConditionalTypes || !(← at_ .question) then return some () else return none

/-- A type with the operators before it. -/
def operatorType (g : Grammar) : Parse Unit := do
  let _ ← many do
    if (← atWord "keyof") || (← atWord "unique") || (← atWord "readonly") then
      bump
      return some ()
    else return none
  if ← atWord "infer" then inferType g else arrayType g

/-- Types joined by an operator, which may also stand first. -/
def joinedType (op : Token) (part : Parse Unit) : Parse Unit := do
  let _ ← eat op
  part
  let _ ← many do
    unless ← eat op do return none
    part
    return some ()

def unionType (g : Grammar) : Parse Unit :=
  joinedType (.binary .bitOr) (joinedType (.binary .bitAnd) (operatorType g))

/-- The parenthesis at hand starts the parameters of a function type. -/
def atFunctionType (g : Grammar) : Parse Bool := do
  if ← at_ (.binary .lt) then return true
  unless ← at_ .lparen do return false
  lookAhead do
    bump
    if ← atOne [.rparen, .ellipsis] then return true
    let _ ← anyModifier
    let passed ←
      if ← atWordToken then
        bump
        pure true
      else if ← atOne [.lbrace, .lbracket] then
        try
          let _ ← g.binding false
          pure true
        catch _ => pure false
      else pure false
    unless passed do return false
    if ← atOne [.colon, .comma, .question, .assign .set] then return true
    if ← eat .rparen then at_ .arrow else return false

def functionType (g : Grammar) : Parse Unit := do
  let _ ← typeParameters? g false true
  expect .lparen
  let _ ← signatureParameters g
  returnType g .arrow

/-- A type that is no condition at its top. -/
def plainTypeRule (g : Grammar) : Parse Unit := do
  if ← atFunctionType g then functionType g
  else if ← atWord "abstract" <&&> isAhead (.keyword .newKw) then
    bump
    bump
    functionType g
  else if ← eat (.keyword .newKw) then functionType g
  else unionType g

def typeRule (g : Grammar) : Parse Unit := do
  plainTypeRule g
  if ← breakBefore then return
  unless ← eat (.keyword .extendsKw) do return
  within (fun s => { s with noConditionalTypes := true }) (plainTypeRule g)
  expect .question
  within (fun s => { s with noConditionalTypes := false }) g.type
  expect .colon
  within (fun s => { s with noConditionalTypes := false }) g.type

/-- The type after the word at hand. -/
def typeAfterWord (g : Grammar) : Parse Unit :=
  inType do
    bump
    g.type

end StepTrace.Script.Grammar
