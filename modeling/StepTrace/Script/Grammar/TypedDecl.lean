import StepTrace.Script.Grammar.Jsx

/-!
Declarations that TypeScript adds: enumerations, interfaces, names of types, namespaces, modules that
are only described, and the word `declare` before any of them.
-/
namespace StepTrace.Script.Grammar

open Parse

/-! ### Enumerations -/

/-- The name of a member of an enumeration, and whether it is written as a text. -/
def enumMemberName (g : Grammar) : Parse (String × Bool) := do
  let start ← pos
  match ← required with
  | .string v _ =>
    bump
    return (v, true)
  | .number raw =>
    bump
    emit start .enumNumericKey
    return (raw, true)
  | .lbracket =>
    bump
    let _ ← g.expr
    emit start .enumComputedKey
    expect .rbracket
    return ("", true)
  | _ => return ((← propertyName).text, false)

/-- A member of an enumeration. A token that cannot follow its name is read as a comma. -/
def enumMember (g : Grammar) : Parse EnumMember := do
  let start ← pos
  let (name, isQuoted) ← enumMemberName g
  let init ←
    if ← eat (.assign .set) then some <$> g.assign
    else
      unless ← atOne [.comma, .rbrace] do
        let here ← pos
        bump
        let sp ← previous
        modify fun s => { s with current := some ⟨.ok .comma, sp, false, []⟩ }
        emit here .expectedSemicolon
      pure none
  return .mk (← placeFrom start) isQuoted name init

/-- An enumeration after the word `enum`. -/
def enumeration (g : Grammar) (start : Nat) (isConst : Bool) : Parse TypedDecl := do
  let name ← propertyName
  expect .lbrace
  let (_, members) ← grow (fun ((done, members) : Bool × List EnumMember) => do
    if done || (← at_ .rbrace) then return none
    let m ← enumMember g
    if ← eat .comma then return some (false, m :: members)
    if ← at_ .rbrace then return some (true, m :: members)
    emit (← span).start (.expected "," (← shown))
    return some (false, m :: members)) (false, [])
  expect .rbrace
  return .enumeration (← placeFrom start) false isConst name members.reverse

/-! ### Interfaces and names of types -/

def reservedInterfaceNames : List String :=
  ["string", "null", "number", "object", "any", "unknown", "boolean", "bigint", "symbol", "void",
    "never", "intrinsic"]

/-- An interface after its word. -/
def interface (g : Grammar) (start : Nat) : Parse TypedDecl := do
  let name ← propertyName
  if reservedInterfaceNames.contains name.text then emit name.place.start .interfaceName
  let _ ← typeParameters? g true false
  if ← eatKeyword .extendsKw then
    let _ ← heritage g
  if ← at_ (.keyword .extendsKw) then
    emit (← span).start .extendsTwice
    let _ ← many do
      if (← atEnd) || (← at_ .lbrace) then return none
      bump
      return some ()
  inType (typeMembers g)
  return .erased (← placeFrom start) (some name)

/-- A name for a type after the word `type`. -/
def typeAlias (g : Grammar) (start : Nat) : Parse TypedDecl := do
  let name ← propertyName
  let _ ← typeParameters? g true false
  inType do
    unless ← eat (.assign .set) do stopHere (.unexpected (← shownOption) "=")
    g.type
  expectStatementEnd
  return .erased (← placeFrom start) (some name)

/-! ### Namespaces -/

/-- The body of a namespace with its braces. It may import and export as a top level does. -/
def namespaceBody (g : Grammar) : Parse (List Stmt) := do
  expect .lbrace
  within (fun s => { s with topLevel := true }) (body g false true (some .rbrace))

/-- A namespace after its word; a name with dots nests namespaces. -/
def namespaceDecl (g : Grammar) (start : Nat) : Parse TypedDecl := do
  let first ← propertyName
  let rest ← many do
    if ← eat .dot then some <$> propertyName else return none
  let stmts ← namespaceBody g
  return .namespace (← placeFrom start) false (first :: rest) stmts

/-- A description of a module that a string names, or of the global scope. -/
def ambientModule (g : Grammar) (start : Nat) : Parse TypedDecl := do
  if ← atWord "global" then bump
  else
    match ← required with
    | .string .. => bump
    | _ => unexpected "global or a string literal"
  let stmts ← if ← at_ .lbrace then namespaceBody g else do
    expectStatementEnd
    pure []
  return .ambientModule (← placeFrom start) stmts

/-- What `import a = …` stands for. -/
def importEquals (start : Nat) (name : Ident) (isExport isType : Bool) :
    Parse TypedDecl := do
  expect (.assign .set)
  if ← atWord "require" <&&> isAhead .lparen then
    bump
    bump
    match ← required with
    | .string _ raw =>
      bump
      expect .rparen
      expectStatementEnd
      return .importRequire (← placeFrom start) isExport isType name raw
    | _ => unexpected "a string literal"
  else
    let path ← entityName false
    expectStatementEnd
    return .importEquals (← placeFrom start) isExport isType name path

/-! ### Declarations after a word -/

/-- A declaration that a word starts, which is at hand or, unless `isNext`, was passed. -/
def declarationAfter? (g : Grammar) (start : Nat) (decorators : List Expr) (word : String)
    (isNext : Bool) : Parse (Option Stmt) := do
  let pass : Parse Unit := if isNext then bump else pure ()
  let follows : Parse Bool := if isNext then pure true else atBindable
  let typed (p : Parse TypedDecl) : Parse (Option Stmt) := do
    pass
    return some (.typed (← p))
  match word with
  | "abstract" =>
    if isNext || ((← at_ (.keyword .classKw)) && !(← breakBefore)) then
      pass
      let (name, c) ← classAt g start .required decorators true
      return name.map fun n => .classDecl n c
    else return none
  | "enum" => if ← follows then typed (enumeration g start false) else return none
  | "interface" => if ← follows then typed (interface g start) else return none
  | "module" =>
    if ← breakBefore then return none
    pass
    match ← required with
    | .string .. => return some (.typed (← ambientModule g start))
    | _ => if ← follows then return some (.typed (← namespaceDecl g start)) else return none
  | "namespace" => if ← follows then typed (namespaceDecl g start) else return none
  | "type" =>
    if isNext || (!(← breakBefore) && (← atBindable)) then typed (typeAlias g start)
    else return none
  | _ => return none

/-- A declaration that describes what is defined elsewhere. -/
def asDeclared (p : Place) : Stmt → Stmt
  | .typed (.enumeration _ _ isConst name members) => .typed (.enumeration p true isConst name members)
  | .typed (.namespace _ _ path stmts) => .typed (.namespace p true path stmts)
  | .varDecl (.mk _ kind _ items) => .varDecl (.mk p kind true items)
  | .typed (.ambientModule _ stmts) => .typed (.ambientModule p stmts)
  | .func n f => .typed (.ambient p (.func n f))
  | .classDecl n c => .typed (.ambient p (.classDecl n c))
  | s => s

end StepTrace.Script.Grammar
