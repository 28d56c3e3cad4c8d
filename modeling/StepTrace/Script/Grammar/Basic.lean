import StepTrace.Script.Cursor
import StepTrace.Script.Node

/-!
What the rules of the grammar share. The rules call each other; a rule that is needed before it is
defined is reached through a `Grammar`, the record of those rules. The names of a program are read
here.
-/
namespace StepTrace.Script

/-- The rules that other rules come back to. -/
structure Grammar where
  /-- Expressions with commas between them. -/
  expr : Parse Expr
  /-- An expression without a comma. -/
  assign : Parse Expr
  unary : Parse Expr
  /-- The operators and operands that follow an expression and hold tighter than a given strength. -/
  binaryTail : Expr → Nat → Parse Expr
  /-- A `new` expression, or what it may construct. -/
  construct : Parse Expr
  leftHand : Parse Expr
  /-- The members, calls and templates that follow an expression; calls and computed members can be
  left out. -/
  subscripts : (noCall noComputed : Bool) → Expr → Parse Expr
  /-- An object literal from its brace on. -/
  object : Parse Expr
  /-- A statement; a declaration too, and as an item of the top level. -/
  stmt : (withDecl top : Bool) → Parse Stmt
  /-- A declared pattern. -/
  binding : (noLet : Bool) → Parse Pat
  /-- A type; it is read and dropped. -/
  type : Parse Unit
  /-- A type that is no condition at its top. -/
  plainType : Parse Unit
  jsxElement : Parse Expr

/-- The grammar that reads nothing. -/
def Grammar.exhausted : Grammar :=
  let stuck {α : Type} : Parse α := do Parse.fail (← get).limit .endOfText
  { expr := stuck, assign := stuck, unary := stuck, binaryTail := fun _ _ => stuck
    construct := stuck, leftHand := stuck, subscripts := fun _ _ _ => stuck
    object := stuck, stmt := fun _ _ => stuck, binding := fun _ => stuck
    type := stuck, plainType := stuck, jsxElement := stuck }

namespace Parse

def isTyped : Parse Bool := do
  return (← get).dialect.isTyped

def hasJsx : Parse Bool := do
  return (← get).dialect.hasJsx

def inType {α : Type} (p : Parse α) : Parse α := within (fun s => { s with inType := true }) p

/-- Lets `in` be an operator, or not. -/
def withIn {α : Type} (allowed : Bool) (p : Parse α) : Parse α :=
  within (fun s => { s with includeIn := allowed }) p

/-- The token is a word that may name a binding here. -/
def isBindable (t : Option Token) : Parse Bool := do
  let s ← setting
  return t.any fun t => t.isWord && !Scan.isReservedToken s t

def atBindable : Parse Bool := do isBindable (← token)

def isBindableAhead : Parse Bool := do isBindable (← tokenAhead)

/-- A function that waits starts here. -/
def atAsyncFunction : Parse Bool :=
  atWord "async" <&&> isAhead (.keyword .functionKw) <&&> notM breakAhead

/-- An enumeration whose values are known in advance starts here. -/
def atConstEnum : Parse Bool := at_ (.keyword .constKw) <&&> isAhead (.ident "enum")

def atWordToken : Parse Bool := do
  return (← token).any Token.isWord

def isWordAhead : Parse Bool := do
  return (← tokenAhead).any Token.isWord

def atBinaryOp : Parse Bool := do
  return match ← token with
    | some (.binary _) => true
    | _ => false

/-- `eval` and `arguments`. -/
def isEvalOrArguments (w : String) : Bool := w == "eval" || w == "arguments"

/-! ### Names -/

/-- Any word, as the name of a property. -/
def propertyName : Parse Ident := do
  let start ← pos
  let t ← required
  match t.word? with
  | some w =>
    bump
    return ⟨← placeFrom start, w⟩
  | none =>
    match t with
    | .jsxName w =>
      if (← setting).inType then
        bump
        return ⟨← placeFrom start, w⟩
      else stopHere .expectedIdentifier
    | _ => stopHere .expectedIdentifier

/-- A private name from its hash sign on. -/
def privateName : Parse Ident := do
  let start ← pos
  bump
  let hashEnd ← lastPos
  unless (← pos) = hashEnd do stop start .spaceAfterHash
  let name ← propertyName
  return ⟨← placeFrom start, "#" ++ name.text⟩

/-- The name of a member, private or not. -/
def memberName : Parse Ident := do
  if ← at_ .hash then privateName else propertyName

/-- Words that strict code does not use as identifiers. -/
def strictWords : List String :=
  ["yield", "let", "static", "implements", "interface", "package", "private", "protected", "public"]

/-- A word that was read there is an identifier; `yield` and `await` may be accepted. -/
def acceptsIdent (t : Token) (here : Nat) (yieldAllowed awaitAllowed : Bool) : Parse Bool := do
  let s ← setting
  match t with
  | .escaped _ => return true
  | .ident w =>
    if w = "enum" then emit here (.reservedInStrict w)
    if strictWords.contains w then noteForModule here (.reservedInStrict w)
    return true
  | .keyword k =>
    if strictWords.contains k.text then noteForModule here (.reservedInStrict k.text)
    match k with
    | .awaitKw =>
      if s.inDeclare then return true
      else if s.inStaticBlock then return false
      else if s.isModule || s.inAsync then stop here .awaitInAsync
      else return awaitAllowed
    | .thisKw => isTyped
    | .letKw => return true
    | .yieldKw => return yieldAllowed
    | _ => return false
  | _ => return false

/-- An identifier; `yield` and `await` may be accepted. -/
def ident (yieldAllowed awaitAllowed : Bool) : Parse Ident := do
  let start ← pos
  let t ← required
  let some w := t.word? | stopHere .expectedIdentifier
  bump
  let here := (← previous).start
  unless ← acceptsIdent t here yieldAllowed awaitAllowed do stop here .expectedIdentifier
  if (← setting).inClassField && w == "arguments" then emit here .argumentsInField
  return ⟨← placeFrom start, w⟩

/-- The name that a declaration binds. -/
def bindingIdent (noLet : Bool) : Parse Ident := do
  if noLet then
    if ← at_ (.keyword .letKw) then unexpected "let is reserved in const, let, class declaration"
  let name ← ident true true
  let here := (← previous).start
  let s ← setting
  if isEvalOrArguments name.text then noteForModule here .bindsEvalOrArguments
  if (s.inAsync || s.inStaticBlock) && name.text == "await" then emit here .expectedIdentifier
  if s.inGenerator && name.text == "yield" then emit here .expectedIdentifier
  return name

/-- The name that a declaration binds, if it has one. -/
def bindingIdent? (isRequired noLet : Bool) : Parse (Option Ident) := do
  if isRequired then some <$> bindingIdent noLet
  else if (← atBindable) || ((← isTyped) && (← at_ (.keyword .thisKw))) then
    some <$> bindingIdent noLet
  else return none

end Parse

end StepTrace.Script
