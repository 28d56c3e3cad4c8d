import StepTrace.Script.Typed.Uses

/-!
Imports and exports of a typed module. What is imported only as a type, or is never read, is left out, and
so are the names of types in export lists. Other names for members and for required modules become
constants, and what the module is assigned as a whole is assigned at its end. A list of names of which
none is left goes too.
-/
namespace StepTrace.Script

/-- Statements by which modules exchange names. -/
def Stmt.isExchange : Stmt → Bool
  | .importNames .. | .exportDecl .. | .exportNames .. | .exportAll .. | .exportDefault ..
  | .exportDefaultFunc .. | .exportDefaultClass .. => true
  | _ => false

mutual

/-- A statement leaves something when its types are gone. -/
def Stmt.isLeft : Stmt → Bool
  | .typed d => d.isLeft
  | .exportDecl _ d => d.isLeft
  | .empty _ => false
  | .func _ f | .exportDefaultFunc _ _ f => f.body.isSome
  | .importNames _ isType _ _ | .exportNames _ isType _ _ | .exportAll _ isType _ => !isType
  | _ => true

def Stmt.anyLeft : List Stmt → Bool
  | [] => false
  | s :: r => s.isLeft || Stmt.anyLeft r

/-- A namespace is left if a statement of its body is. -/
def TypedDecl.isLeft : TypedDecl → Bool
  | .enumeration .. | .exportAssign .. => true
  | .namespace _ _ _ stmts | .ambientModule _ stmts => Stmt.anyLeft stmts
  | .importEquals _ _ isType _ _ | .importRequire _ _ isType _ _ => !isType
  | .ambient _ d => d.isLeft
  | .erased .. => false

end

/-- The name of a declaration that is only a type. -/
def Stmt.typeName? : Stmt → Option String
  | .typed (.erased _ n) => n.map Ident.text
  | .typed (.importEquals _ _ true n _) | .typed (.importRequire _ _ true n _) => some n.text
  | .typed (.namespace _ _ path stmts) =>
    if Stmt.anyLeft stmts then none else path.head?.map Ident.text
  | .exportDecl _ d => d.typeName?
  | _ => none

/-- The names of values that the members of a list of statements declare or assign, without imports. -/
def Stmt.valueNamesOf (stmts : List Stmt) : List String :=
  Stmt.assignedNames stmts ++ stmts.flatMap fun
    | .importNames .. => []
    | s => if s.typeName?.isSome then [] else s.declaredNames

/-- The names of a list of statements that are only names of types. -/
def Stmt.pureTypesOf (stmts : List Stmt) : List String :=
  let values := Stmt.valueNamesOf stmts
  let types := stmts.flatMap fun
    | .importNames _ isType names _ => names.flatMap fun
      | .named true _ l => [l.text]
      | .default l | .namespace l | .named false _ l => if isType then [l.text] else []
    | s => s.typeName?.toList
  types.filter (!values.contains ·)

/-! ### Names for members that are never read -/

/-- A namespace that is not given out. -/
def Stmt.isOwnNamespace : Stmt → Bool
  | .typed (.namespace ..) => true
  | _ => false

/-- Another name for a member is kept if it is given out or read. -/
def Stmt.isKept (read : List String) : Stmt → Bool
  | .typed (.importEquals _ isExport isType n _) => !isType && (isExport || read.contains n.text)
  | _ => true

mutual

/-- A namespace without the names for members that it never reads. If one of the namespaces in it is not
given out, all of them lose theirs too. -/
def Stmt.withoutUnread : Stmt → Stmt
  | .typed (.namespace p isDeclare path stmts) =>
    let inner := if stmts.any Stmt.isOwnNamespace then Stmt.withoutUnreadOf stmts else stmts
    .typed (.namespace p isDeclare path (inner.filter (Stmt.isKept (Stmt.readNames stmts))))
  | .exportDecl q (.typed (.namespace p isDeclare path stmts)) =>
    let inner := if stmts.any Stmt.isOwnNamespace then Stmt.withoutUnreadOf stmts else stmts
    .exportDecl q (.typed (.namespace p isDeclare path (inner.filter (Stmt.isKept (Stmt.readNames stmts)))))
  | s => s

def Stmt.withoutUnreadOf : List Stmt → List Stmt
  | [] => []
  | s :: r => s.withoutUnread :: Stmt.withoutUnreadOf r

end

/-! ### What is left of a module -/

def ImportName.local : ImportName → Ident
  | .default l | .namespace l | .named _ _ l => l

/-- An import brings in what is read, no type, and nothing that the module declares itself. -/
def ImportName.isNeeded (used values : List String) : ImportName → Bool
  | .named true .. => false
  | n => used.contains n.local.text && !values.contains n.local.text

/-- An export list gives out what is no type. -/
def ExportName.isNeeded (types : List String) (isLocal : Bool) : ExportName → Bool
  | .named isType o _ => !isType && !(isLocal && types.contains o.text)
  | _ => true

/-- A name and members of it. -/
def Expr.ofPath : List Ident → Expr
  | [] => .elision
  | h :: r => r.foldl (fun e n => .member none .plain e n) (.ident h)

/-- A constant with a value. -/
def Stmt.constant (p : Place) (name : Ident) (value : Expr) : Stmt :=
  .varDecl (.mk p .const false [.mk none (.ident name) (some value)])

def Expr.assignTo (target value : Expr) : Expr := .assign none .set (.expr target) value

/-- What is left of a statement among the imports and exports of a module. -/
def Stmt.exchanged? (used values types : List String) : Stmt → Option Stmt
  | .importNames p isType names m =>
    if isType then none
    else
      let needed := names.filter (·.isNeeded used values)
      if needed.isEmpty && !names.isEmpty then none else some (.importNames p false needed m)
  | .exportNames p isType names m =>
    let needed := names.filter (·.isNeeded types m.isNone)
    if isType || needed.isEmpty then none else some (.exportNames p false needed m)
  | .exportAll p isType m => if isType then none else some (.exportAll p false m)
  | .exportDefault p e =>
    match e with
    | .ident n => if types.contains n.text then none else some (.exportDefault p e)
    | e => some (.exportDefault p e)
  | .typed (.importEquals p isExport isType n path) =>
    if isType then none
    else if isExport then some (.exportDecl p (.constant none n (.ofPath path)))
    else if used.contains n.text then some (.constant p n (.ofPath path))
    else none
  | .typed (.importRequire p isExport isType n m) =>
    let required : Expr := .call none .plain (.ofName "require") [.literal none (.string "" m)]
    if isType then none
    else if isExport then some (.constant p n (.assignTo (.property "exports" n.text) required))
    else if used.contains n.text then some (.constant p n required)
    else none
  | .typed (.exportAssign ..) => none
  | s => some s

/-- The first assignment of the module as a whole. -/
def Stmt.wholeExport? (stmts : List Stmt) : Option Stmt :=
  stmts.findSome? fun
    | .typed (.exportAssign p e) => some (.expr p (.assignTo (.property "module" "exports") e))
    | _ => none

/-- A module with the imports and exports that are left of it. -/
def Stmt.exchangedOf (stmts : List Stmt) : List Stmt :=
  let left := Stmt.exchanged? (Stmt.readNames stmts) (Stmt.valueNamesOf stmts) (Stmt.pureTypesOf stmts)
  stmts.filterMap left ++ (Stmt.wholeExport? stmts).toList

end StepTrace.Script
