import StepTrace.Script.Grammar.Expression
import StepTrace.Script.Grammar.TypedDecl

/-!
Statements. A name before a colon is a label; jumps are checked against the labels and loops around
them.
-/
namespace StepTrace.Script.Grammar

open Parse

/-! ### Declarations of variables -/


/-- One variable with its value. -/
def declarator (g : Grammar) (isLoop : Bool) (kind : VarKind) : Parse Declarator := do
  let start ← pos
  let isLexical := kind = .let || kind = .const
  let target ← g.binding isLexical
  let typed ← isTyped
  if typed && target.isIdent then
    let _ ← eat .bang
  let hasType ← if typed then typeAnnotation? g else pure false
  let p ← placeFrom start
  if isLoop && ((← at_ (.keyword .inKw)) || (← atWord "of")) then
    if hasType then
      let here := target.start
      modify fun s => { s with typedLoopName := some here }
    return .mk p target none
  if ← eat (.assign .set) then
    let e ← g.assign
    return .mk (← placeFrom start) target (some e)
  let s ← setting
  if !s.inDeclare then
    if kind = .const && s.strict then emit start .constWithoutInit
    else unless target.isIdent do stop start .patternWithoutInit
  return .mk p target none

/-- Variables with commas between them. `startSpan` is the word before them. -/
def declarators (startSpan : Option Span) (one : Parse Declarator) : Parse (List Declarator) := do
  let (_, items) ← grow (fun ((done, items) : Bool × List Declarator) => do
    if done then return none
    unless ← pure items.isEmpty <||> eat .comma do return none
    if (← at_ .semi) || (← atEnd) then
      let sp ← previous
      emit (if startSpan = some sp then sp.stop else sp.start) .trailingComma
      return some (true, items)
    let d ← one
    return some (false, d :: items)) (false, [])
  return items.reverse

/-- The word that declares variables. -/
def varKind? : Token → Option VarKind
  | .keyword .varKw => some .var
  | .keyword .letKw => some .let
  | .keyword .constKw => some .const
  | _ => none

/-- Variables after a word that declares them, as a statement or before the first semicolon of a
loop. After a missing end, the reading goes on with the next statement. -/
def varDecl (g : Grammar) (isLoop : Bool) : Parse VarDecl := do
  let start ← pos
  let kind := ((← token).bind varKind?).getD .var
  bump
  let word ← previous
  if (← isTyped) && isLoop && ((← at_ (.keyword .inKw)) || (← atWord "of")) then
    let isHead ←
      try lookAhead do
        bump
        let _ ← g.assign
        expect .rparen
        return true
      catch _ => pure false
    if isHead then
      emit word.stop .emptyDeclarationList
      return .mk (← placeFrom start) kind false []
  let one := declarator g isLoop kind
  let items ← declarators (some word)
    (if kind = .var && isLoop then one else withIn true one)
  unless isLoop do
    unless ← eatStatementEnd do
      emit (← span).start .expectedSemicolon
      let _ ← try some <$> g.expr catch _ => pure none
      let _ ← grow (fun (done : Bool) => do
        if ← pure done <||> eatStatementEnd then return none
        bump
        return some (match ← lexeme with
          | some ⟨.error _, _, _, _⟩ => true
          | _ => false)) false
  return .mk (← placeFrom start) kind false items

/-- Resources after the word `using`, if names follow it on its line. -/
def resources? (g : Grammar) (start : Nat) (isAwait : Bool) : Parse (Option Stmt) := do
  if ← breakAhead <||> notM isBindableAhead then return none
  bump
  let items ← declarators none (declarator g false .var)
  unless ← isTyped do emit start .usingNotEnabled
  unless (← setting).usingAllowed do emit start .usingNotAllowed
  for (.mk _ target init) in items do
    unless target.isIdent do emit start .usingPattern
    if init.isNone then emit start .usingWithoutInit
  let kind := if isAwait then VarKind.awaitUsing else .using
  return some (.varDecl (.mk (← placeFrom start) kind false items))

/-! ### Jumps -/

/-- A jump after its word. -/
def jump (start : Nat) (isBreak : Bool) : Parse Stmt := do
  let label ←
    if ← eatStatementEnd then pure none
    else
      let s ← setting
      let n ← ident (!s.inGenerator) (!s.inAsync)
      expectStatementEnd
      pure (some n)
  let known ← match label with
    | some n => pure ((← get).labels.contains n.text)
    | none => pure true
  let s ← setting
  let p ← placeFrom start
  if isBreak then
    if !known then emit start .breakLabel
    else unless s.breakAllowed do emit start .breakOutside
    return .breakTo p label
  else
    unless s.continueAllowed do emit start .continueOutside
    if s.continueAllowed && !known then emit start .continueLabel
    return .continueTo p label

def returnFrom (g : Grammar) (start : Nat) : Parse Stmt := do
  bump
  let arg ← if ← atStatementEnd then pure none else some <$> withIn true g.expr
  expectStatementEnd
  unless (← setting).inFunction do emit start .returnNotAllowed
  return .returnStmt (← placeFrom start) arg

def throwFrom (g : Grammar) (start : Nat) : Parse Stmt := do
  bump
  if ← breakBefore then stopHere .breakAfterThrow
  let arg ← withIn true g.expr
  expectStatementEnd
  return .throwStmt (← placeFrom start) arg

/-! ### Conditions and loops -/

/-- An expression in parentheses, after the word of a statement. -/
def inParens (g : Grammar) : Parse Expr := do
  expect .lparen
  let e ← withIn true g.expr
  expect .rparen
  return e

def loopBody (g : Grammar) : Parse Stmt :=
  within (fun s => { s with breakAllowed := true, continueAllowed := true }) (g.stmt false false)

def ifFrom (g : Grammar) (start : Nat) : Parse Stmt := do
  bump
  let test ← inParens g
  let yes ← g.stmt false false
  let no ← if ← eatKeyword .elseKw then some <$> g.stmt false false else pure none
  return .ifElse (← placeFrom start) test yes no

def whileFrom (g : Grammar) (start : Nat) : Parse Stmt := do
  bump
  let test ← inParens g
  let b ← loopBody g
  return .whileLoop (← placeFrom start) test b

def doFrom (g : Grammar) (start : Nat) : Parse Stmt := do
  bump
  let b ← loopBody g
  expectKeyword .whileKw
  let test ← inParens g
  let _ ← eatStatementEnd
  return .doWhileLoop (← placeFrom start) test b

/-- One clause of a `switch`; `hasDefault` when one for all other values came before. -/
def switchCase (g : Grammar) (hasDefault : Bool) : Parse SwitchCase := do
  let start ← pos
  let isCase ← at_ (.keyword .caseKw)
  bump
  let test ←
    if isCase then some <$> withIn true g.expr
    else
      if hasDefault then stopHere .repeatedDefault
      pure none
  expect .colon
  let stmts ← many do
    if (← atEnd) || (← atOne [.keyword .caseKw, .keyword .defaultKw, .rbrace]) then return none
    some <$> g.stmt true false
  return .mk (some ⟨start, (← previous).stop⟩) test stmts

def switchFrom (g : Grammar) (start : Nat) : Parse Stmt := do
  bump
  let subject ← inParens g
  expect .lbrace
  let (_, cases) ← within (fun s => { s with breakAllowed := true })
    (grow (fun ((hasDefault, cases) : Bool × List SwitchCase) => do
      unless ← atOne [.keyword .caseKw, .keyword .defaultKw] do return none
      let c ← switchCase g hasDefault
      let isDefault := match c with
        | .mk _ none _ => true
        | _ => false
      return some (hasDefault || isDefault, c :: cases)) (false, []))
  expect .rbrace
  return .switchOn (← placeFrom start) subject cases.reverse

/-! ### The head of a `for` -/

/-- What stands between the parentheses of a `for`. -/
inductive ForHead where
  | steps (init : LoopHead) (test update : Option Expr)
  | each (isOf : Bool) (head : LoopHead) (subject : Expr)

/-- The tests and updates of a loop, after its first semicolon. -/
def loopSteps (g : Grammar) (init : LoopHead) : Parse ForHead := do
  let test ←
    if ← eat .semi then pure none
    else
      let e ← withIn true g.expr
      expect .semi
      pure (some e)
  let update ← if ← at_ .rparen then pure none else some <$> withIn true g.expr
  return .steps init test update

/-- What a loop goes through, from `in` or `of` on. -/
def loopSubject (g : Grammar) (head : LoopHead) : Parse ForHead := do
  let isOf ← atWord "of"
  bump
  let subject ← withIn true (if isOf then g.assign else g.expr)
  return .each isOf head subject

def atInOrOf : Parse Bool := do
  return (← at_ (.keyword .inKw)) || (← atWord "of")

/-- A token that makes `let` the start of a declaration. -/
def followsLet : Option Token → Bool
  | some (.keyword .letKw) | some .lbrace | some .lbracket | some (.ident _) | some (.escaped _)
  | some (.keyword .yieldKw) | some (.keyword .awaitKw) => true
  | _ => false

/-- Variables that stand before `in` or `of`: one, without a value. -/
def checkLoopVariables (items : List Declarator) : Parse Unit := do
  let isOf ← atWord "of"
  match items with
  | [.mk _ target init] =>
    if ((← setting).strict || isOf) && init.isSome then emit target.start .loopInitializer
    if (← get).typedLoopName = some target.start then
      emit target.start .loopVariableTyped
  | items =>
    for (.mk _ target _) in items.drop 1 do emit target.start .manyLoopBindings

/-- A resource that a loop binds anew for each value. -/
def loopResource? (e : Expr) : Parse (Option VarKind) := do
  unless ← isTyped do return none
  let kind? : Option VarKind := match e with
    | .ident n => if n.text == "using" then some .using else none
    | .await _ (.ident n) => if n.text == "using" then some .awaitUsing else none
    | _ => none
  if kind?.isNone || (← atWord "of") then return none
  if (← isAhead (.ident "of")) || (← isAhead (.keyword .inKw)) then return kind? else return none

def forHead (g : Grammar) : Parse ForHead := do
  let declares ←
    if ← atOne [.keyword .constKw, .keyword .varKw] then pure true
    else if ← at_ (.keyword .letKw) then followsLet <$> tokenAhead
    else pure false
  if declares then
    let d ← varDecl g true
    if ← atInOrOf then
      let .mk _ _ _ items := d
      checkLoopVariables items
      return ← loopSubject g (.varDecl d)
    expect .semi
    return ← loopSteps g (.varDecl d)
  if ← eat .semi then return ← loopSteps g .none
  let start ← pos
  let e ← within (fun s => { s with includeIn := false }) g.expr
  if let some kind ← loopResource? e then
    let name ← bindingIdent false
    let p ← placeFrom start
    let d := VarDecl.mk p kind false [.mk p (.ident name) none]
    let isIn ← at_ (.keyword .inKw)
    if isIn then emit start .usingInForIn
    return ← loopSubject g (.varDecl d)
  if ← atInOrOf then
    let isIn ← at_ (.keyword .inKw)
    let q ← Pat.ofExpr .target e
    if (← isTyped) && isIn then
      match q with
      | .ident _ | .expr _ => pure ()
      | q => emit q.start .forInPattern
    return ← loopSubject g (.pat q)
  expect .semi
  loopSteps g (.expr e)

def forFrom (g : Grammar) (start : Nat) : Parse Stmt := do
  bump
  let awaitStart ← pos
  let isAwait ← eatKeyword .awaitKw
  expect .lparen
  let head ← within (fun s => { s with inForInit := true, inForAwaitInit := isAwait }) (forHead g)
  expect .rparen
  let b ← loopBody g
  let p ← placeFrom start
  match head with
  | .each true h subject => return .forOf p isAwait h subject b
  | .each false h subject =>
    if isAwait then stop awaitStart .awaitNotOf
    return .forIn p h subject b
  | .steps init test update =>
    if isAwait then stop awaitStart .awaitNotOf
    return .forLoop p init test update b

/-! ### Other statements -/

/-- The clause that catches, if it is at hand. -/
def catch? (g : Grammar) : Parse (Option Catch) := do
  let start ← pos
  unless ← eatKeyword .catchKw do return none
  let param ←
    if ← eat .lparen then
      let q ← g.binding false
      if ← isTyped then
        let _ ← typeAnnotation? g
      expect .rparen
      pure (some q)
    else pure none
  let b ← block g false
  return some (.mk (← placeFrom start) param b)

/-- The block that comes last, if it is at hand. -/
def finally? (g : Grammar) : Parse (Option Block) := do
  if ← eatKeyword .finallyKw then some <$> block g false else return none

def tryFrom (g : Grammar) (start : Nat) : Parse Stmt := do
  bump
  let b ← block g false
  let here ← pos
  let handler ← catch? g
  let finalizer ← finally? g
  if handler.isNone && finalizer.isNone then emit here .expectedSemicolon
  return .tryStmt (← placeFrom start) b handler finalizer

/-- A clause of a `try` that is missing. -/
def strayClause (g : Grammar) : Parse Stmt := do
  let here := (← span).start
  emit here .expectedSemicolon
  let _ ← try catch? g catch _ => pure none
  let _ ← try finally? g catch _ => pure none
  return .expr (some ⟨here, here⟩) (.missing here)

def withFrom (g : Grammar) (start : Nat) : Parse Stmt := do
  if ← isTyped then emit start .withInTyped
  noteForModule start .withInStrict
  bump
  let obj ← inParens g
  let b ← within (fun s => { s with inFunction := true }) (g.stmt false false)
  return .withObject (← placeFrom start) obj b

/-- A function or a class as a statement. -/
def declaredFunction (g : Grammar) (decorators : List Expr) : Parse Stmt := do
  let start ← pos
  match ← function g .required decorators with
  | (some n, f) => return .func n f
  | (none, _) => stop start .expectedIdentifier

def declaredClass (g : Grammar) (start : Nat) (decorators : List Expr) (isAbstract : Bool) :
    Parse Stmt := do
  match ← classAt g start .required decorators isAbstract with
  | (some n, c) => return .classDecl n c
  | (none, _) => stop start .expectedIdentifier

/-- A statement after a label and its colon. -/
def labeled (g : Grammar) (label : Ident) : Parse Stmt :=
  within (fun s => { s with breakAllowed := true, usingAllowed := false }) do
    let isRepeated := (← get).labels.contains label.text
    modify fun s => { s with labels := label.text :: s.labels }
    let b ←
      if ← at_ (.keyword .functionKw) then
        let s ← declaredFunction g []
        if let .func _ (.mk p isAsync isGenerator _ _ _) := s then
          if (← setting).strict then emit p.start .labelledFunctionInStrict
          if isAsync || isGenerator then emit p.start .labelledGenerator
        pure s
      else g.stmt false false
    if isRepeated then emit label.place.start (.repeatedLabel label.text)
    modify fun s => { s with labels := s.labels.erase label.text }
    return .labeled (← placeFrom label.place.start) label b

/-! ### Declarations that describe -/

/-- What follows the word `declare`. -/
def declared? (g : Grammar) (start : Nat) (decorators : List Expr) : Parse (Option Stmt) := do
  if (← setting).inDeclare then emit start .declareInAmbient
  within (fun s => { s with inDeclare := true }) do
    let s? ←
      if ← at_ (.keyword .functionKw) then some <$> declaredFunction g decorators
      else if ← at_ (.keyword .classKw) then some <$> declaredClass g start decorators false
      else if ← atConstEnum then
        bump
        bump
        some <$> Stmt.typed <$> enumeration g start true
      else if (← token).any fun t => (varKind? t).isSome then
        some <$> Stmt.varDecl <$> varDecl g false
      else if ← atWord "global" then some <$> Stmt.typed <$> ambientModule g start
      else match (← token).bind Token.word? with
        | some w => declarationAfter? g start decorators w true
        | none => pure none
    let p ← placeFrom start
    return s?.map (asDeclared p)

/-- A declaration that starts with a word that is no keyword, and was passed. -/
def declarationFromWord? (g : Grammar) (decorators : List Expr) (word : Ident) :
    Parse (Option Stmt) := do
  let start := word.place.start
  match word.text with
  | "declare" => declared? g start decorators
  | "global" =>
    if ← at_ .lbrace then
      let stmts ← namespaceBody g
      return some (.typed (.ambientModule (← placeFrom start) stmts))
    else return none
  | w => declarationAfter? g start decorators w false

/-! ### All statements -/

/-- A statement that starts with an expression: that expression, a label, or a word that declares. -/
def exprStatement (g : Grammar) (start : Nat) (decorators : List Expr) : Parse Stmt := do
  let e ← withIn true g.expr
  match e with
  | .ident n => if ← eat .colon then return ← labeled g n
  | _ => pure ()
  if let .ident n := e then
    let here := n.place.start
    if n.text == "interface" && (← breakBefore) then
      noteForModule here (.reservedInStrict n.text)
      let _ ← eatStatementEnd
      return .expr (← placeFrom start) e
    if ← isTyped then
      if let some s ← declarationFromWord? g decorators n then return s
    if n.text == "enum" || n.text == "interface" then noteForModule here (.reservedInStrict n.text)
    let modifies := ["public", "static", "abstract"].contains n.text
    if ← isTyped <&&> pure modifies <&&> eatWord "interface" then
      emit here .interfaceName
      return .typed (← interface g start)
  if ← eatStatementEnd then return .expr (← placeFrom start) e
  match ← token with
  | some (.binary _) =>
    emit (← span).start .expectedSemicolon
    let e ← g.binaryTail e 0
    return .expr (← placeFrom start) e
  | _ => stopHere .expectedStatementEnd

/-- The awaited expression that a statement starts with, or awaited resources. Such an expression ends
where its operands do: what follows it is the next statement. -/
def awaitStatement? (g : Grammar) (start : Nat) (top : Bool) : Parse (Option Stmt) := do
  if top then
    modify fun s => { s with foundModuleItem := true }
    unless (← setting).canBeModule do emit (← span).start .awaitInScript
  let mayDeclare ← isAhead (.ident "using")
  unless top || mayDeclare do return none
  if mayDeclare then
    let before ← get
    bump
    if let some s ← resources? g start true then return some s
    set before
  let e ← awaitExpr g
  let e ← withIn true (g.binaryTail e 0)
  let _ ← eatStatementEnd
  return some (.expr (← placeFrom start) e)

/-- The statement that a word of TypeScript starts, with a name on the same line. -/
def typedStatement? (g : Grammar) (word : String) : Parse (Option Stmt) := do
  unless ← isTyped <&&> isWordAhead <&&> notM breakAhead do return none
  let start ← pos
  let typed (p : Parse TypedDecl) : Parse (Option Stmt) := do
    bump
    return some (.typed (← p))
  match word with
  | "interface" => typed (interface g start)
  | "type" => typed (typeAlias g start)
  | "enum" => typed (enumeration g start false)
  | _ => return none

/-- A statement that is neither an import nor an export. -/
def statement (g : Grammar) (start : Nat) (withDecl top : Bool) (decorators : List Expr) :
    Parse Stmt := do
  if ← isTyped <&&> atConstEnum then
    bump
    bump
    return .typed (← enumeration g start true)
  let expression := exprStatement g start decorators
  let onlyDeclared : Parse Unit := do
    unless withDecl do emit (← span).start .declarationNotAllowed
  match ← required with
  | .keyword .awaitKw =>
    if withDecl then
      if let some s ← awaitStatement? g start top then return s
    expression
  | .keyword .breakKw =>
    bump
    jump start true
  | .keyword .continueKw =>
    bump
    jump start false
  | .keyword .debuggerKw =>
    bump
    expectStatementEnd
    return .debugger (← placeFrom start)
  | .keyword .doKw => doFrom g start
  | .keyword .forKw => forFrom g start
  | .keyword .functionKw =>
    onlyDeclared
    declaredFunction g decorators
  | .keyword .classKw =>
    onlyDeclared
    declaredClass g start decorators false
  | .keyword .ifKw => ifFrom g start
  | .keyword .returnKw => returnFrom g start
  | .keyword .switchKw => switchFrom g start
  | .keyword .throwKw => throwFrom g start
  | .keyword .catchKw | .keyword .finallyKw => strayClause g
  | .keyword .tryKw => tryFrom g start
  | .keyword .withKw => withFrom g start
  | .keyword .whileKw => whileFrom g start
  | .keyword .varKw => .varDecl <$> varDecl g false
  | .keyword .constKw => if withDecl then .varDecl <$> varDecl g false else expression
  | .keyword .letKw =>
    if withDecl && followsLet (← tokenAhead) then .varDecl <$> varDecl g false else expression
  | .lbrace => .block <$> within (fun s => { s with usingAllowed := true }) (block g false)
  | .semi =>
    bump
    return .empty (← placeFrom start)
  | .ident w =>
    if w == "using" && withDecl then
      if let some s ← resources? g start false then return s
    if let some s ← typedStatement? g w then return s
    if ← atAsyncFunction then
      declaredFunction g decorators
    else expression
  | _ => expression

end StepTrace.Script.Grammar
