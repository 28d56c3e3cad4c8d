import StepTrace.Script.Scope

/-!
Names that statements declare. A `var` declares its names for the whole function around it, however deep
it stands; all other declarations count for the list of statements that they are members of.
-/
namespace StepTrace.Script

/-- The members that can be read by their names. -/
def EnumMember.readable (members : List EnumMember) : List String :=
  members.filterMap fun | .mk _ isQuoted n _ => if isQuoted then none else some n

/-- The names that a member of a list of statements declares for the list. -/
def Stmt.declaredNames : Stmt → List String
  | .varDecl d => match d.kind with
    | .var => []
    | _ => d.boundNames
  | .func n _ | .classDecl n _ => [n.text]
  | .exportDefaultFunc _ n _ | .exportDefaultClass _ n _ => (n.map Ident.text).toList
  | .importNames _ _ names _ => names.map fun
    | .default l | .namespace l | .named _ _ l => l.text
  | .typed d => match d with
    | .enumeration _ _ _ n _ => [n.text]
    | .namespace _ _ path _ => (path.head?.map Ident.text).toList
    | .importEquals _ _ _ n _ | .importRequire _ _ _ n _ => [n.text]
    | .ambient _ d => d.declaredNames
    | .exportAssign .. | .ambientModule .. | .erased .. => []
  | .exportDecl _ d => match d with
    | .varDecl d => match d.kind with
      | .var => []
      | _ => d.boundNames
    | .func n _ | .classDecl n _ => [n.text]
    | .typed (.enumeration _ _ _ n _) => [n.text]
    | .typed (.namespace _ _ path _) => (path.head?.map Ident.text).toList
    | .typed (.ambient _ d) => d.declaredNames
    | _ => []
  | _ => []

/-- The names that a list of statements declares, without those of `var`. -/
def Stmt.declaredNamesOf (stmts : List Stmt) : List String := stmts.flatMap Stmt.declaredNames

mutual

/-- The names that `var` declares in a statement. -/
def Stmt.varNames : Stmt → List String
  | .block b => b.varNames
  | .withObject _ _ s | .labeled _ _ s | .whileLoop _ _ s | .doWhileLoop _ _ s => s.varNames
  | .ifElse _ _ yes no => yes.varNames ++ Stmt.varNames? no
  | .switchOn _ _ cases => SwitchCase.varNamesOf cases
  | .tryStmt _ b c f => b.varNames ++ Catch.varNames? c ++ Block.varNames? f
  | .forLoop _ h _ _ s | .forIn _ h _ s | .forOf _ _ h _ s => h.varNames ++ s.varNames
  | .varDecl d => d.varNames
  | .exportDecl _ d => d.varNames
  | _ => []

def Stmt.varNames? : Option Stmt → List String
  | none => []
  | some s => s.varNames

def Stmt.varNamesOf : List Stmt → List String
  | [] => []
  | s :: r => s.varNames ++ Stmt.varNamesOf r

def Block.varNames : Block → List String
  | .mk _ stmts => Stmt.varNamesOf stmts

def Block.varNames? : Option Block → List String
  | none => []
  | some b => b.varNames

def SwitchCase.varNamesOf : List SwitchCase → List String
  | [] => []
  | .mk _ _ stmts :: r => Stmt.varNamesOf stmts ++ SwitchCase.varNamesOf r

def Catch.varNames? : Option Catch → List String
  | none => []
  | some (.mk _ _ b) => b.varNames

def VarDecl.varNames : VarDecl → List String
  | .mk _ kind _ items => match kind with
    | .var => Pat.boundNamesOf (items.map Declarator.target)
    | _ => []

def LoopHead.varNames : LoopHead → List String
  | .varDecl d => d.varNames
  | _ => []

end

/-- The names that the head of a loop declares for the loop. -/
def LoopHead.declaredNames : LoopHead → List String
  | .varDecl d => match d.kind with
    | .var => []
    | _ => d.boundNames
  | _ => []

/-- The names that a body of a function or of a namespace declares. -/
def Stmt.bodyNamesOf (stmts : List Stmt) : List String :=
  Stmt.varNamesOf stmts ++ Stmt.declaredNamesOf stmts

/-- The names that the cases of a `switch` declare. -/
def SwitchCase.declaredNamesOf (cases : List SwitchCase) : List String :=
  cases.flatMap fun
    | .mk _ _ stmts => Stmt.declaredNamesOf stmts

def Block.bodyNames? : Option Block → List String
  | none => []
  | some b => Stmt.bodyNamesOf b.stmts

def ArrowBody.bodyNames : ArrowBody → List String
  | .block b => Stmt.bodyNamesOf b.stmts
  | .expr _ => []

end StepTrace.Script
