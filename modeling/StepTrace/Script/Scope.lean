import StepTrace.Names
import StepTrace.Script.Node

/-!
Which names can be read at a place. A name enters a scope only when the statement that declares it has
been passed; a `var` goes to the nearest scope of a function. What all arguments are called is never a
name here.
-/
namespace StepTrace.Script

inductive ScopeKind where
  | function
  | block
deriving DecidableEq, Repr, Inhabited

structure Scope where
  kind : ScopeKind
  names : List String
deriving DecidableEq, Repr, Inhabited

/-- Adds a name at the end, unless it is there. -/
def insertName (names : List String) (name : String) : List String :=
  if name = argumentsName ∨ name ∈ names then names else names ++ [name]

/-- Scopes, the innermost first. -/
abbrev ScopeStack := List Scope

namespace ScopeStack

def push (s : ScopeStack) (kind : ScopeKind) : ScopeStack := ⟨kind, []⟩ :: s

def pop (s : ScopeStack) : ScopeStack := s.tail

/-- Declares a name in the innermost scope. -/
def declare (s : ScopeStack) (name : String) : ScopeStack :=
  match s with
  | [] => []
  | scope :: r => { scope with names := insertName scope.names name } :: r

/-- Declares a name in the nearest scope of a function. -/
def declareVar (s : ScopeStack) (name : String) : ScopeStack :=
  match s with
  | [] => []
  | scope :: r =>
    if scope.kind = .function then { scope with names := insertName scope.names name } :: r
    else scope :: declareVar r name

def declareAll (s : ScopeStack) (names : List String) : ScopeStack := names.foldl declare s

/-- The scope of a function with its parameters. -/
def pushFunction (s : ScopeStack) (params : List String) : ScopeStack :=
  (s.push .function).declareAll params

/-- The names that can be read, those of the outermost scope first, each once. -/
def visible (s : ScopeStack) : List String :=
  (s.reverse.flatMap Scope.names).foldl insertName []

end ScopeStack

/-! ### Names that a pattern binds -/

mutual

/-- The names that a pattern binds, in the order of the text. -/
def Pat.boundNames : Pat → List String
  | .ident n => if n.text = argumentsName then [] else [n.text]
  | .elision => []
  | .array _ items => Pat.boundNamesOf items
  | .object _ members => PatProperty.boundNamesOf members
  | .rest _ q => q.boundNames
  | .withDefault _ q _ => q.boundNames
  | .expr _ => []

def Pat.boundNamesOf : List Pat → List String
  | [] => []
  | q :: r => q.boundNames ++ Pat.boundNamesOf r

def PatProperty.boundNames : PatProperty → List String
  | .keyValue _ q => q.boundNames
  | .shorthand _ n _ => if n.text = argumentsName then [] else [n.text]
  | .rest _ q => q.boundNames

def PatProperty.boundNamesOf : List PatProperty → List String
  | [] => []
  | p :: r => p.boundNames ++ PatProperty.boundNamesOf r

end

/-- The names that parameters bind. -/
def Param.boundNamesOf (ps : List Param) : List String := Pat.boundNamesOf (ps.map Param.pat)

/-- The names that declared variables bind. -/
def VarDecl.boundNames (d : VarDecl) : List String := Pat.boundNamesOf (d.items.map Declarator.target)

end StepTrace.Script
