import StepTrace.Script.Dialect
import StepTrace.Script.Token

/-!
The state in which a program text is read. The reader holds the unread characters, up to two tokens
that were scanned ahead, and the setting that says what is allowed at this place. A token is scanned
only when it is asked for, so it is scanned under the setting of that moment.
-/
namespace StepTrace.Script

/-- What encloses the text at hand, as far as the scanner has to know. -/
inductive Enclosure where
  | braceStmt
  | braceExpr
  | parenStmt (isForLoop : Bool)
  | parenExpr
  | template
  | templateHole
  | funcExpr
  | classExpr
  | jsxExpr
  | jsxOpening
  | jsxClosing
deriving DecidableEq, Repr, Inhabited

namespace Enclosure

/-- After the end of an expression an operator follows, and not another expression. -/
def isExpr : Enclosure → Bool
  | braceExpr | templateHole | parenExpr | template | funcExpr | classExpr | jsxExpr => true
  | _ => false

/-- Blanks count as text. -/
def keepsBlanks : Enclosure → Bool
  | template | jsxExpr => true
  | _ => false

end Enclosure

/-- A scanned token, or the fault met in its place. -/
structure Lexeme where
  content : Except Fault Token
  span : Span
  /-- A line ends between the token before and this one. -/
  afterBreak : Bool
  /-- The text from the first character of the token on. -/
  text : List Char

namespace Lexeme

def token? (l : Lexeme) : Option Token :=
  match l.content with
  | .ok t => some t
  | .error _ => none

end Lexeme

/-- What is allowed at a place of a program. -/
structure Setting where
  isModule : Bool := false
  canBeModule : Bool := false
  strict : Bool := false
  topLevel : Bool := false
  ignoreError : Bool := false
  inForInit : Bool := false
  inForAwaitInit : Bool := false
  includeIn : Bool := false
  inAsync : Bool := false
  inGenerator : Bool := false
  inFunction : Bool := false
  inNonArrowFunction : Bool := false
  inParameters : Bool := false
  inStaticBlock : Bool := false
  continueAllowed : Bool := false
  breakAllowed : Bool := false
  inClass : Bool := false
  inClassField : Bool := false
  hasSuperClass : Bool := false
  superAllowed : Bool := false
  usingAllowed : Bool := true
  inPropertyName : Bool := false
  inForcedJsx : Bool := false
  inType : Bool := false
  /-- Inside a type, `<<` and `>>` are read as operators all the same. -/
  wholeAngles : Bool := false
  inDeclare : Bool := false
  inCondition : Bool := false
  colonEndsCondition : Bool := false
  childOfCondition : Bool := false
  noConditionalTypes : Bool := false
  noArrowReturnType : Bool := false
deriving Repr, Inhabited

structure Reader where
  dialect : Dialect
  /-- The whole text. -/
  text : List Char
  /-- The number of its characters. -/
  limit : Nat
  rest : List Char
  offset : Nat
  enclosures : List Enclosure
  exprAllowed : Bool
  lastToken : Option Token
  afterBreak : Bool
  isFirst : Bool
  /-- The text of a regular expression that the next token has to be. -/
  regexAt : Option (Nat × List Char)
  templateStart : Nat
  current : Option Lexeme
  next : Option Lexeme
  previous : Span
  setting : Setting
  /-- Faults that do not stop the reading, the latest first. -/
  faults : List Fault
  /-- Faults that count only in a module, the latest first. -/
  moduleFaults : List Fault
  labels : List String
  arrowStart : Option Nat
  foundModuleItem : Bool
  /-- The commas that end an array or object literal, by the place where the literal starts. -/
  trailingCommas : List (Nat × Span)

  /-- The last loop variable that was read with a type. -/
  typedLoopName : Option Nat

namespace Reader

def ofText (dialect : Dialect) (text : List Char) : Reader where
  dialect := dialect
  text := text
  limit := text.length
  rest := text
  offset := 0
  enclosures := [.braceStmt]
  exprAllowed := true
  lastToken := none
  afterBreak := false
  isFirst := true
  regexAt := none
  templateStart := 0
  current := none
  next := none
  previous := ⟨0, 0⟩
  setting := {}
  faults := []
  moduleFaults := []
  labels := []
  arrowStart := none
  foundModuleItem := false
  trailingCommas := []
  typedLoopName := none

end Reader

/-- Reading a part of a program. A fault stops it and leaves the reader where it was met. -/
abbrev Parse := EStateM Fault Reader

namespace Parse

/-- Records a fault that does not stop the reading. -/
def note (offset : Nat) (cause : Cause) : Parse Unit :=
  modify fun s => if s.setting.ignoreError then s else { s with faults := ⟨offset, cause⟩ :: s.faults }

/-- Records a fault that counts only if the program is a module. -/
def noteForModule (offset : Nat) (cause : Cause) : Parse Unit :=
  modify fun s =>
    if s.setting.ignoreError then s
    else if s.setting.isModule then { s with faults := ⟨offset, cause⟩ :: s.faults }
    else { s with moduleFaults := ⟨offset, cause⟩ :: s.moduleFaults }

/-- Records a fault that counts in strict code and in modules. -/
def noteInStrict (offset : Nat) (cause : Cause) : Parse Unit := do
  if (← get).setting.strict then note offset cause else noteForModule offset cause

def fail {α : Type} (offset : Nat) (cause : Cause) : Parse α :=
  throw ⟨offset, cause⟩

def setting : Parse Setting := do
  return (← get).setting

/-- Sets what is allowed; in a module the faults kept for modules now count. -/
def setSetting (x : Setting) : Parse Unit :=
  modify fun s =>
    if x.isModule then
      { s with setting := x, faults := s.moduleFaults ++ s.faults, moduleFaults := [] }
    else { s with setting := x }

/-- Reads a part under a changed setting, which is put back also after a fault. -/
def within {α : Type} (change : Setting → Setting) (p : Parse α) : Parse α := do
  let before ← setting
  setSetting (change before)
  try
    let a ← p
    setSetting before
    return a
  catch e =>
    setSetting before
    throw e

/-- The reader as it was, with the faults that were recorded since. -/
def restore (before : Reader) : Parse Unit :=
  modify fun s => { before with faults := s.faults, moduleFaults := s.moduleFaults }

/-- Reads a part, or puts the reader back if there is none. Faults on the way are not recorded; once
the part is there, they are again. -/
def attempt {α : Type} (p : Parse (Option α)) : Parse (Option α) := do
  let before ← get
  modify fun s => { s with setting := { s.setting with ignoreError := true } }
  try
    match ← p with
    | some a =>
      modify fun s => { s with setting := { s.setting with ignoreError := false } }
      return some a
    | none =>
      restore before
      return none
  catch _ =>
    restore before
    return none

/-- Looks ahead and puts the reader back, whatever was found. -/
def lookAhead {α : Type} (p : Parse α) : Parse α := do
  let before ← get
  modify fun s => { s with setting := { s.setting with ignoreError := true } }
  try
    let a ← p
    restore before
    return a
  catch e =>
    restore before
    throw e

def collect {α : Type} (step : Parse (Option α)) : Nat → List α → Parse (List α)
  | 0, acc => return acc.reverse
  | n + 1, acc => do
    match ← step with
    | some a => collect step n (a :: acc)
    | none => return acc.reverse

/-- Takes steps until one gives nothing. A step that gives something reads at least one character,
and the number of steps is bounded by that. -/
def many {α : Type} (step : Parse (Option α)) : Parse (List α) := do
  collect step ((← get).limit + 2) []

def advance {α : Type} (step : α → Parse (Option α)) : Nat → α → Parse α
  | 0, a => return a
  | n + 1, a => do
    match ← step a with
    | some b => advance step n b
    | none => return a

/-- Grows a result by steps until one gives nothing. -/
def grow {α : Type} (step : α → Parse (Option α)) (a : α) : Parse α := do
  advance step ((← get).limit + 2) a

end Parse

end StepTrace.Script
