import StepTrace.Script.Operator
import StepTrace.Script.Place

/-!
The syntax tree of a program. A literal keeps its spelling, parentheses stay where they were written,
and an elided element or a spread is an expression of its own. Annotations of types are not in the
tree; declarations that only TypeScript has are `TypedDecl`s until they are lowered.
-/
namespace StepTrace.Script

/-- A name. A private name keeps its hash sign. -/
structure Ident where
  place : Place
  text : String
deriving DecidableEq, Repr, Inhabited

inductive Literal where
  | string (value raw : String)
  | number (raw : String)
  | bigint (raw : String)
  | regex (body flags : String)
  | boolean (b : Bool)
  | null
deriving DecidableEq, Repr, Inhabited

/-- How a member or a call hangs on what is left of it: `optional` has `?.`, and `chained` is a later
link of a chain that has one. -/
inductive Link where
  | plain | chained | optional
deriving DecidableEq, Repr, Inhabited

/-- How TypeScript wraps an expression without changing its value. -/
inductive Ascription where
  | asType | asConst | satisfies | angle | angleConst | nonNull | instantiation
deriving DecidableEq, Repr, Inhabited

inductive MetaProperty where
  | newTarget | importMeta
deriving DecidableEq, Repr, Inhabited

inductive VarKind where
  | var | let | const | using | awaitUsing
deriving DecidableEq, Repr, Inhabited

inductive MethodKind where
  | method | getter | setter
deriving DecidableEq, Repr, Inhabited

inductive JsxName where
  | simple (name : Ident)
  | member (head : Ident) (path : List String)
  | namespaced (space name : String)
deriving DecidableEq, Repr, Inhabited

/-- One name that an import brings in; `imported` is its spelling in the other module. -/
inductive ImportName where
  | default (local_ : Ident)
  | namespace (local_ : Ident)
  | named (isType : Bool) (imported : Option String) (local_ : Ident)
deriving DecidableEq, Repr, Inhabited

/-- One name that an export list gives out; `name` is that of a binding unless the list takes from
another module. -/
inductive ExportName where
  | default (exported : Ident)
  | namespace (exported : String)
  | named (isType : Bool) (name : Ident) (exported : Option String)
deriving DecidableEq, Repr, Inhabited

/-- An entry of the `with` clause of an import. -/
structure ImportAttribute where
  key : String
  value : String
deriving DecidableEq, Repr, Inhabited

/-- How far an imported module is taken: evaluated at once, evaluated when it is first used, or as its
source alone. -/
inductive ImportPhase where
  | evaluation
  | defer
  | source
deriving DecidableEq, Repr, Inhabited

/-- The module that an import or an export list names, by its spelling. -/
structure ModuleSource where
  raw : String
  attributes : Option (List ImportAttribute)
  phase : ImportPhase := .evaluation
deriving DecidableEq, Repr, Inhabited

mutual

inductive Expr where
  | this (place : Place)
  | superRef (place : Place)
  | importRef (place : Place)
  | ident (name : Ident)
  | literal (place : Place) (value : Literal)
  | template (place : Place) (chunks : List String) (parts : List Expr)
  | tagged (place : Place) (tag : Expr) (chunks : List String) (parts : List Expr)
  | array (place : Place) (items : List Expr)
  | object (place : Place) (members : List Property)
  | func (name : Option Ident) (f : Function)
  | classExpr (name : Option Ident) (c : Class)
  | arrow (place : Place) (isAsync : Bool) (params : List Pat) (body : ArrowBody)
  | unary (place : Place) (op : UnaryOp) (arg : Expr)
  | update (place : Place) (op : UpdateOp) (isPrefix : Bool) (arg : Expr)
  | binary (place : Place) (op : BinaryOp) (left right : Expr)
  | assign (place : Place) (op : AssignOp) (target : Pat) (value : Expr)
  | cond (place : Place) (test yes no : Expr)
  | member (place : Place) (link : Link) (obj : Expr) (name : Ident)
  | index (place : Place) (link : Link) (obj : Expr) (key : Expr)
  | call (place : Place) (link : Link) (callee : Expr) (args : List Expr)
  | construct (place : Place) (callee : Expr) (hasArgs : Bool) (args : List Expr)
  | sequence (place : Place) (items : List Expr)
  | paren (place : Place) (inner : Expr)
  | await (place : Place) (arg : Expr)
  | yield (place : Place) (isDelegate : Bool) (arg : Option Expr)
  | metaProperty (place : Place) (which : MetaProperty)
  | spread (place : Place) (arg : Expr)
  | elision
  | element (place : Place) (name : Option JsxName) (isClosed : Bool) (attributes children : List JsxPart)
  | ascribed (place : Place) (how : Ascription) (inner : Expr)

/-- An attribute or a child of a JSX element. The value of an attribute is a text with its quotes, a
container or an element. -/
inductive JsxPart where
  | attribute (name : String) (value : Option JsxPart)
  | spread (e : Expr)
  | text (value : String)
  | container (e : Option Expr)
  | child (e : Expr)

inductive Property where
  | shorthand (name : Ident) (init : Option Expr)
  | keyValue (key : Key) (value : Expr)
  | method (key : Key) (f : Function)
  | getter (place : Place) (key : Key) (body : Block)
  | setter (place : Place) (key : Key) (param : Pat) (body : Block)
  | spread (place : Place) (e : Expr)

inductive Key where
  | name (name : Ident)
  | literal (place : Place) (value : Literal)
  | computed (place : Place) (e : Expr)

/-- A place to assign to, or a declared pattern. -/
inductive Pat where
  | ident (name : Ident)
  | elision
  | array (place : Place) (items : List Pat)
  | object (place : Place) (members : List PatProperty)
  | rest (place : Place) (arg : Pat)
  | withDefault (place : Place) (target : Pat) (value : Expr)
  | expr (e : Expr)

inductive PatProperty where
  | keyValue (key : Key) (value : Pat)
  | shorthand (place : Place) (name : Ident) (value : Option Expr)
  | rest (place : Place) (arg : Pat)

/-- A function without its name. One without a body is only a signature. -/
inductive Function where
  | mk (place : Place) (isAsync isGenerator : Bool) (decorators : List Expr) (params : List Param)
      (body : Option Block)

/-- A parameter; `isProperty` when TypeScript declares a property of the object by it. -/
inductive Param where
  | mk (place : Place) (decorators : List Expr) (isProperty : Bool) (pat : Pat)

inductive ArrowBody where
  | block (b : Block)
  | expr (e : Expr)

inductive Block where
  | mk (place : Place) (stmts : List Stmt)

inductive Class where
  | mk (place : Place) (decorators : List Expr) (members : List ClassMember) (parent : Option Expr)

/-- A member of a class; `isErased` when it only describes a type. -/
inductive ClassMember where
  | ctor (place : Place) (key : Key) (params : List Param) (body : Option Block)
  | method (place : Place) (key : Key) (kind : MethodKind) (isStatic isErased : Bool) (f : Function)
  | property (place : Place) (key : Key) (isStatic isErased isAccessor : Bool) (value : Option Expr)
      (decorators : List Expr)
  | staticBlock (place : Place) (body : Block)
  | empty (place : Place)

inductive Stmt where
  | block (b : Block)
  | empty (place : Place)
  | debugger (place : Place)
  | withObject (place : Place) (obj : Expr) (body : Stmt)
  | returnStmt (place : Place) (arg : Option Expr)
  | labeled (place : Place) (label : Ident) (body : Stmt)
  | breakTo (place : Place) (label : Option Ident)
  | continueTo (place : Place) (label : Option Ident)
  | ifElse (place : Place) (test : Expr) (yes : Stmt) (no : Option Stmt)
  | switchOn (place : Place) (subject : Expr) (cases : List SwitchCase)
  | throwStmt (place : Place) (arg : Expr)
  | tryStmt (place : Place) (block : Block) (handler : Option Catch) (finalizer : Option Block)
  | whileLoop (place : Place) (test : Expr) (body : Stmt)
  | doWhileLoop (place : Place) (test : Expr) (body : Stmt)
  | forLoop (place : Place) (init : LoopHead) (test update : Option Expr) (body : Stmt)
  | forIn (place : Place) (head : LoopHead) (subject : Expr) (body : Stmt)
  | forOf (place : Place) (isAwait : Bool) (head : LoopHead) (subject : Expr) (body : Stmt)
  | varDecl (d : VarDecl)
  | func (name : Ident) (f : Function)
  | classDecl (name : Ident) (c : Class)
  | expr (place : Place) (e : Expr)
  | importNames (place : Place) (isType : Bool) (names : List ImportName) (source : ModuleSource)
  | exportDecl (place : Place) (decl : Stmt)
  | exportNames (place : Place) (isType : Bool) (names : List ExportName)
      (source : Option ModuleSource)
  | exportAll (place : Place) (isType : Bool) (source : ModuleSource)
  | exportDefault (place : Place) (e : Expr)
  | exportDefaultFunc (place : Place) (name : Option Ident) (f : Function)
  | exportDefaultClass (place : Place) (name : Option Ident) (c : Class)
  | typed (d : TypedDecl)

/-- Declarations that TypeScript adds. An ambient one describes a function, a class or a module that is
defined elsewhere; an erased one leaves at most the name of a type. -/
inductive TypedDecl where
  | enumeration (place : Place) (isDeclare isConst : Bool) (name : Ident) (members : List EnumMember)
  | namespace (place : Place) (isDeclare : Bool) (path : List Ident) (body : List Stmt)
  | importEquals (place : Place) (isExport isType : Bool) (name : Ident) (path : List Ident)
  | importRequire (place : Place) (isExport isType : Bool) (name : Ident) (source : String)
  | exportAssign (place : Place) (e : Expr)
  | ambient (place : Place) (decl : Stmt)
  | ambientModule (place : Place) (body : List Stmt)
  | erased (place : Place) (name : Option Ident)

/-- A member of an enumeration; one whose name is written as a text (`isQuoted`) cannot be read by its
name alone. -/
inductive EnumMember where
  | mk (place : Place) (isQuoted : Bool) (name : String) (init : Option Expr)

inductive VarDecl where
  | mk (place : Place) (kind : VarKind) (isDeclare : Bool) (items : List Declarator)

inductive Declarator where
  | mk (place : Place) (target : Pat) (init : Option Expr)

inductive SwitchCase where
  | mk (place : Place) (test : Option Expr) (body : List Stmt)

inductive Catch where
  | mk (place : Place) (param : Option Pat) (body : Block)

/-- What stands before the first semicolon, `in` or `of` of a `for`. -/
inductive LoopHead where
  | none
  | varDecl (d : VarDecl)
  | pat (p : Pat)
  | expr (e : Expr)

end

/-- A program; `isModule` when it imports or exports or awaits at its top. -/
structure Program where
  isModule : Bool
  shebang : Option String
  body : List Stmt

end StepTrace.Script
