import StepTrace.Script.Grammar.Statement

/-!
Imports and exports, and whole programs. The rules of the grammar are tied together here: each level of
nesting takes one layer of a grammar whose layers are as many as the text could need.
-/
namespace StepTrace.Script.Grammar

open Parse

/-! ### Names between modules -/

/-- The attributes of a module, if they follow on the same line. -/
def moduleAttributes? (g : Grammar) : Parse (Option (List ImportAttribute)) := do
  let _ ← lexeme
  unless (← isTyped) && !(← breakBefore) do return none
  unless ← eatWord "assert" <||> eatKeyword .withKw do return none
  match ← objectLiteral g with
  | .object _ members =>
    return some (members.filterMap fun
      | .keyValue (.name n) (.literal _ (.string _ raw)) => some ⟨n.text, raw⟩
      | .keyValue (.literal _ (.string _ k)) (.literal _ (.string _ raw)) => some ⟨k, raw⟩
      | _ => none)
  | _ => return some []

/-- The string that names a module, with the end of the statement. -/
def moduleString (g : Grammar) : Parse ModuleSource := do
  match ← required with
  | .string _ raw =>
    bump
    let attributes ← moduleAttributes? g
    expectStatementEnd
    return { raw, attributes }
  | _ => unexpected "a string literal"

/-- The module that an export list takes from. -/
def fromClause (g : Grammar) : Parse ModuleSource := do
  expectWord "from"
  moduleString g

/-- A name that another module may use: its spelling, and its value if it is a string. -/
structure SharedName where
  name : Ident
  string : Option String

def sharedName : Parse SharedName := do
  let start ← pos
  match ← token with
  | some (.string v raw) =>
    bump
    return ⟨⟨← placeFrom start, raw⟩, some v⟩
  | _ =>
    unless ← atWordToken do unexpected "identifier or string"
    return ⟨← propertyName, none⟩

/-- What an entry of a list of names says when it starts with `type`: the words after it, and whether
it marks the entry as a type. -/
inductive TypeMark where
  /-- No mark: the entry may rename the name. -/
  | none (name : Ident)
  /-- A mark: the entry may rename the name. -/
  | marked (name : Ident)
  /-- The entry is complete. -/
  | renamed (isType : Bool) (name : Ident) (as_ : Option Ident)

/-- The words of an entry from `type` on; `second` reads a name after `as`. -/
def typeMark (word : Ident) (second : Parse Ident) (onMark : Parse Unit) : Parse TypeMark := do
  unless (← isTyped) && word.text == "type" && (← atWordToken) do return .none word
  let name ← propertyName
  unless name.text == "as" do
    onMark
    return .marked name
  unless ← atWordToken do
    onMark
    return .renamed true name .none
  let n ← second
  unless n.text == "as" do return .renamed false word (some n)
  unless ← atWordToken do return .renamed false word (some n)
  let n ← second
  onMark
  return .renamed true name (some n)

/-! ### Imports -/

/-- The name that an import binds. -/
def importedBinding : Parse Ident :=
  within (fun s => { s with inAsync := false, inGenerator := false }) (bindingIdent false)

/-- One name in the braces of an import. -/
def importEntry (isType : Bool) : Parse ImportName := do
  let n ← sharedName
  let renamedOr (fallback : Parse Ident) (isMarked : Bool) (imported : String) :
      Parse ImportName := do
    if ← eatWord "as" then return .named isMarked (some imported) (← bindingIdent false)
    return .named isMarked none (← fallback)
  match n.string with
  | some v =>
    renamedOr (stop n.name.place.start (.importedString v)) false n.name.text
  | none =>
    let onMark : Parse Unit := if isType then emit n.name.place.start .typeOnImportedName else pure ()
    match ← typeMark n.name (bindingIdent false) onMark with
    | .none x => renamedOr (pure x) false x.text
    | .marked x => renamedOr (pure x) true x.text
    | .renamed isMarked x (some y) => return .named isMarked (some x.text) y
    | .renamed isMarked x none => return .named isMarked none x

/-- The words of an import up to the first name that is not its default. -/
structure ImportHead where
  default? : Option Ident := none
  isType : Bool := false
  phase : ImportPhase := .evaluation

/-- The name that an import takes by default, after the word `type` if the import brings in types
alone. -/
def importDefault? : Parse ImportHead := do
  unless ← atBindable do return {}
  let name ← importedBinding
  if (← isTyped) && name.text == "type" then
    if ← atOne [.binary .mul, .lbrace] then return { isType := true }
    if ← atBindable then
      if ← notM (atWord "from") <||> isAhead (.ident "from") then
        return { default? := some (← importedBinding), isType := true }
      if ← isAhead (.assign .set) then
        return { default? := some (← propertyName), isType := true }
  return { default? := some name }

/-- A default name that turns out to be the word for a phase. -/
def withPhase (h : ImportHead) : Parse ImportHead := do
  let some phase := h.default?.bind fun n => ImportPhase.ofWord? n.text | return h
  if ← atOne [.binary .mul, .lbrace] then return { h with default? := none, phase }
  if (← atBindable <&&> notM (atWord "from")) || (← isAhead (.ident "from")) then
    return { h with default? := some (← importedBinding), phase }
  return h

/-- An import from its word on. -/
def importFrom (g : Grammar) (start : Nat) : Parse Stmt := do
  let s ← setting
  unless s.isModule do setSetting { s with isModule := true, strict := true }
  expectKeyword .importKw
  if let some (.string ..) := ← token then
    let source ← moduleString g
    return .importNames (← placeFrom start) false [] source
  let h ← importDefault?
  if let some name := h.default? then
    if (← isTyped) && (← at_ (.assign .set)) then
      return .typed (← importEquals start name false h.isType)
  let h ← withPhase h
  if h.default?.isSome then
    unless ← atWord "from" do expect .comma
  let names ←
    if ← eat (.binary .mul) then
      expectWord "as"
      pure [ImportName.namespace (← importedBinding)]
    else if ← eat .lbrace then
      let names ← delimitedTo .rbrace (importEntry h.isType)
      expect .rbrace
      pure names
    else pure []
  let source ← fromClause g
  let first := (h.default?.map ImportName.default).toList
  return .importNames (← placeFrom start) h.isType (first ++ names) { source with phase := h.phase }
where
  delimitedTo (close : Token) (entry : Parse ImportName) : Parse (List ImportName) := do
    let (_, names) ← grow (fun ((done, names) : Bool × List ImportName) => do
      if done || (← atEnd) || (← at_ close) then return none
      let n ← entry
      if ← at_ close then return some (true, n :: names)
      expect .comma
      return some (false, n :: names)) (false, [])
    return names.reverse

/-! ### Exports -/

/-- One name in the braces of an export, and whether the name is a string. -/
def exportEntry (isType : Bool) : Parse (ExportName × Bool) := do
  let n ← sharedName
  let renamed (isMarked : Bool) (x : Ident) : Parse (ExportName × Bool) := do
    let exported ← if ← eatWord "as" then some <$> sharedName else pure none
    return (.named isMarked x (exported.map (·.name.text)), n.string.isSome)
  match n.string with
  | some _ => renamed false n.name
  | none =>
    let onMark : Parse Unit := if isType then emit n.name.place.start .typeOnExportedName else pure ()
    match ← typeMark n.name propertyName onMark with
    | .none x => renamed false x
    | .marked x => renamed true x
    | .renamed isMarked x y => return (.named isMarked x (y.map Ident.text), false)

/-- A word that never names a binding. -/
def isAlwaysReserved (w : String) : Bool :=
  match Keyword.ofText? w with
  | some .letKw | some .yieldKw | some .awaitKw => false
  | some _ => true
  | none => ["null", "true", "false", "enum", "package"].contains w

/-- Names that an export list without a module cannot give out. -/
def checkLocalExport : ExportName × Bool → Parse Unit
  | (.named _ n _, true) => emit n.place.start .exportedStringWithoutFrom
  | (.named _ n _, false) => do
    if isAlwaysReserved n.text then emit n.place.start (.exportWithoutFrom n.text)
  | _ => return

/-- An export list in braces. -/
def exportList (g : Grammar) (start : Nat) (isType : Bool) : Parse Stmt := do
  expect .lbrace
  let (_, names) ← grow (fun ((done, names) : Bool × List (ExportName × Bool)) => do
    if done || (← atEnd) || (← at_ .rbrace) then return none
    let n ← exportEntry isType
    if ← at_ .rbrace then return some (true, n :: names)
    expect .comma
    return some (false, n :: names)) (false, [])
  expect .rbrace
  let names := names.reverse
  let source ←
    if ← atWord "from" then some <$> fromClause g
    else
      names.forM checkLocalExport
      let _ ← eatStatementEnd
      pure none
  return .exportNames (← placeFrom start) isType (names.map (·.1)) source

/-- What a module exports by default. -/
def exportDefault (g : Grammar) (start : Nat) (decorators : List Expr) : Parse Stmt := do
  let decorators ← ownDecorators decorators
  if ← isTyped then
    let here ← pos
    if ← atWord "abstract" <&&> isAhead (.keyword .classKw) <&&> notM breakAhead then
      bump
      let (name, c) ← classAt g here .optional decorators true
      return .exportDefaultClass (← placeFrom start) name c
    if ← atWord "abstract" <&&> isAhead (.ident "interface") then
      emit here .abstractNotAllowed
      bump
    if ← eatWord "interface" then
      let d ← interface g here
      return .exportDecl (← placeFrom start) (.typed d)
  if ← at_ (.keyword .classKw) then
    let here ← pos
    let (name, c) ← classAt g here .optional decorators false
    return .exportDefaultClass (← placeFrom start) name c
  let isAsync ← atAsyncFunction
  if isAsync || (← at_ (.keyword .functionKw)) then
    let (name, f) ← function g .optional decorators
    return .exportDefaultFunc (← placeFrom start) name f
  let e ← withIn true g.assign
  expectStatementEnd
  return .exportDefault (← placeFrom start) e
where
  ownDecorators (before : List Expr) : Parse (List Expr) := do
    unless ← at_ .atSign do return before
    let here ← pos
    let ds ← Grammar.decorators g false
    unless before.isEmpty do stop here .decoratorsTwice
    return ds

/-- A declaration that is exported, or none if something else follows. -/
def exportedDeclaration? (g : Grammar) (decorators : List Expr) : Parse (Option Stmt) := do
  let here ← pos
  if ← at_ (.keyword .classKw) then return some (← declaredClass g here decorators false)
  if ← atAsyncFunction then
    return some (← declaredFunction g decorators)
  if ← at_ (.keyword .functionKw) then return some (← declaredFunction g decorators)
  if ← isTyped <&&> atConstEnum then
    bump
    bump
    return some (.typed (← enumeration g here true))
  if (← atOne [.keyword .varKw, .keyword .constKw]) ||
      ((← at_ (.keyword .letKw)) && followsLet (← tokenAhead)) then
    return some (.varDecl (← varDecl g false))
  return none

/-- What only TypeScript can export. -/
def exportTyped? (g : Grammar) (start : Nat) (decorators : List Expr) : Parse (Option Stmt) := do
  unless ← isTyped do return none
  let here ← pos
  if ← eatWord "declare" then
    if let some s ← declared? g here decorators then return some (← exportOf s)
  if let some w := (← token).bind Token.word? then
    let s? ← attempt do
      let here ← pos
      declarationAfter? g here decorators w true
    if let some s := s? then return some (← exportOf s)
  if ← eatKeyword .importKw then
    let isType ← atWord "type" <&&> isBindableAhead
    if isType then bump
    let name ← propertyName
    return some (.typed (← importEquals start name true isType))
  if ← eat (.assign .set) then
    let e ← g.expr
    expectStatementEnd
    return some (.typed (.exportAssign (← placeFrom start) e))
  if ← eatWord "as" then
    expectWord "namespace"
    let _ ← ident false false
    expectStatementEnd
    return some (.typed (.erased (← placeFrom start) none))
  return none
where
  exportOf (s : Stmt) : Parse Stmt := do
    return .exportDecl (← placeFrom start) s

/-- An export from its word on. -/
def exportFrom (g : Grammar) (start : Nat) (decorators : List Expr) : Parse Stmt := do
  let s ← setting
  if !s.isModule && s.canBeModule then setSetting { s with isModule := true, strict := true }
  bump
  let _ ← lexeme
  if let some s ← exportTyped? g start decorators then return s
  let isType ← if ← isTyped then eatWord "type" else pure false
  if !isType then
    if ← eatKeyword .defaultKw then return ← exportDefault g start decorators
  let decorators ←
    if ← at_ .atSign then
      let here ← pos
      let ds ← Grammar.decorators g false
      unless decorators.isEmpty do stop here .decoratorsTwice
      pure ds
    else pure decorators
  if !isType then
    if let some s ← exportedDeclaration? g decorators then
      return .exportDecl (← placeFrom start) s
  if ← at_ (.binary .mul) then
    if !(← isAhead (.ident "as")) then
      bump
      let source ← fromClause g
      return .exportAll (← placeFrom start) isType source
    bump
    bump
    let n ← sharedName
    let source ← fromClause g
    return .exportNames (← placeFrom start) isType [.namespace n.name.text] (some source)
  exportList g start isType

/-! ### Programs -/

/-- A statement, a declaration, or an item of a module. -/
def stmtRule (g : Grammar) (top withDecl : Bool) : Parse Stmt := do
  let start ← pos
  let ds ← decorators g true
  if ← atOne [.keyword .importKw, .keyword .exportKw] then
    let here ← pos
    if ← at_ (.keyword .importKw) then
      if (← isAhead .lparen) || (← isAhead .dot) then
        let e ← g.expr
        let _ ← eatStatementEnd
        return .expr (← placeFrom here) e
      if top then return ← importFrom g here
    else if top then return ← exportFrom g here ds
    stopHere .moduleSyntaxInside
  within (fun s => { s with colonEndsCondition := false, usingAllowed := true })
    (statement g start withDecl top ds)

/-- One more layer of the grammar. -/
def deepen (g : Grammar) : Grammar where
  expr := exprRule g
  assign := assignRule g
  unary := unaryRule g
  binaryTail := binaryTailRule g
  construct := constructRule g
  leftHand := leftHandRule g
  subscripts := subscriptsRule g
  object := objectLiteral g
  stmt := fun withDecl top => stmtRule g top withDecl
  binding := bindingPattern g
  type := typeRule g
  plainType := plainTypeRule g
  jsxElement := jsxElementRule g

/-- A grammar of that many layers. -/
def ofDepth (n : Nat) : Grammar := Nat.repeat deepen n Grammar.exhausted

end StepTrace.Script.Grammar

namespace StepTrace.Script

open Parse

/-- A statement that only a module can hold. One that is erased and names nothing gives the module itself
a name. -/
def Stmt.isModuleItem : Stmt → Bool
  | importNames .. | exportDecl .. | exportNames .. | exportAll .. | exportDefault ..
  | exportDefaultFunc .. | exportDefaultClass .. => true
  | typed (.importEquals ..) | typed (.importRequire ..) | typed (.exportAssign ..) => true
  | typed (.erased _ none) => true
  | _ => false

namespace Program

/-- A whole program. -/
def parse (g : Grammar) : Parse Program := do
  let shebang ←
    match ← token with
    | some (.shebang s) =>
      bump
      pure (some s)
    | _ => pure none
  let stmts ← within (fun s => { s with canBeModule := true, topLevel := true })
    (Grammar.body g true true none)
  let isModule := (← get).foundModuleItem || stmts.any Stmt.isModuleItem
  if isModule then
    setSetting { (← setting) with isModule := true, strict := true, canBeModule := true }
  return ⟨isModule, shebang, stmts⟩

/-- Reads a program text. A fault that stops the reading wins over those that were recorded before it;
of these the first counts. -/
def ofText (dialect : Dialect) (text : List Char) : Except Fault Program :=
  let g := Grammar.ofDepth (4 * text.length + 64)
  match (parse g).run (Reader.ofText dialect text) with
  | .error f _ => .error f
  | .ok p s =>
    match s.faults.getLast? with
    | some f => .error f
    | none => .ok p

end Program

end StepTrace.Script
