import StepTrace.Script.Typed.Declared

/-!
What a part of a program does with the names around it. A target of an assignment that is no more than a
name is assigned and not read, and so is one that a pattern assigns to.
-/
namespace StepTrace.Script

/-- What a part of a program needs from around it. -/
inductive Use where
  | read (name : String)
  | assigned (name : String)
  /-- A call of the constructor of the parent class. -/
  | parentCall
deriving DecidableEq, Repr, Inhabited

namespace Use

/-- The use does not reach beyond what declares the names. -/
def isMet (bound : List String) : Use → Bool
  | read n | assigned n => bound.contains n
  | parentCall => false

def isAssigned : Use → Bool
  | assigned _ => true
  | _ => false

/-- The name that is read. -/
def readName? : Use → Option String
  | read n => some n
  | _ => none

/-- The name that is assigned. -/
def assignedName? : Use → Option String
  | assigned n => some n
  | _ => none

/-- Uses that reach beyond what declares names. -/
def beyond (bound : List String) (uses : List Use) : List Use := uses.filter (!isMet bound ·)

theorem mem_beyond {bound : List String} {uses : List Use} {u : Use} :
    u ∈ beyond bound uses ↔ u ∈ uses ∧ u.isMet bound = false := by
  simp [beyond]

/-- Uses that reach beyond a function or a class, in which no constructor of a parent class around it can
be called. -/
def aside (uses : List Use) : List Use := uses.filter (· != parentCall)

theorem mem_aside {uses : List Use} {u : Use} : u ∈ aside uses ↔ u ∈ uses ∧ u ≠ parentCall := by
  simp [aside]

end Use

/-- A name of an element reads a variable, unless it is simple and starts with a small letter. -/
def JsxName.uses : JsxName → List Use
  | simple n => if n.text.toList.head?.any Char.isLower then [] else [.read n.text]
  | member h _ => [.read h.text]
  | namespaced .. => []

/-- The variable that a name in a list of exports without a source gives out. -/
def ExportName.given? : ExportName → Option String
  | named false o _ => some o.text
  | _ => none

/-- The names of members with the names that they stand for, if they are not given out. -/
def Stmt.aliasesOf (stmts : List Stmt) : List (String × String) :=
  stmts.filterMap fun
    | .typed (.importEquals _ false false n path) => path.head?.map fun h => (n.text, h.text)
    | _ => none

/-- Uses of names, with uses of those that they stand for. -/
def Use.throughAliases (aliases : List (String × String)) (uses : List Use) : List Use :=
  aliases.foldl (fun uses _ =>
    uses ++ (aliases.filter fun a => uses.contains (.read a.1)).map fun a => .read a.2) uses

/-- The statement is a declaration whose values may assign variables around it. -/
def Stmt.holdsValues : Stmt → Bool
  | .varDecl _ | .exportDecl _ (.varDecl _) | .exportDefault .. | .exportDefaultFunc ..
  | .exportDefaultClass .. | .typed (.exportAssign ..) => true
  | _ => false

mutual

def Expr.uses : Expr → List Use
  | .ident n => [.read n.text]
  | .template _ _ parts => Expr.usesOf parts
  | .tagged _ tag _ parts => tag.uses ++ Expr.usesOf parts
  | .array _ items => Expr.usesOf items
  | .object _ members => Property.usesOf members
  | .func name f => Use.beyond (name.map Ident.text).toList f.uses
  | .classExpr name c => Use.beyond (name.map Ident.text).toList c.uses
  | .arrow _ _ params body =>
    Use.beyond (Pat.boundNamesOf params ++ body.bodyNames) (Pat.usesOf params ++ body.uses)
  | .unary _ _ e | .update _ _ _ e => e.uses
  | .binary _ _ l r => l.uses ++ r.uses
  | .assign _ _ q e => q.uses ++ e.uses
  | .cond _ a b c => a.uses ++ b.uses ++ c.uses
  | .member _ _ e _ => e.uses
  | .index _ _ e k => e.uses ++ k.uses
  | .call _ _ (.superRef _) args => .parentCall :: Expr.usesOf args
  | .call _ _ f args => f.uses ++ Expr.usesOf args
  | .construct _ f _ args => f.uses ++ Expr.usesOf args
  | .sequence _ items => Expr.usesOf items
  | .paren _ e | .await _ e | .spread _ e | .ascribed _ _ e => e.uses
  | .yield _ _ e => Expr.uses? e
  | .element _ name _ as_ cs =>
    (name.map JsxName.uses).getD [] ++ JsxPart.usesOf as_ ++ JsxPart.usesOf cs
  | .this _ | .superRef _ | .importRef _ | .literal .. | .metaProperty .. | .elision => []

def Expr.uses? : Option Expr → List Use
  | none => []
  | some e => e.uses

def Expr.usesOf : List Expr → List Use
  | [] => []
  | e :: r => e.uses ++ Expr.usesOf r

def JsxPart.uses : JsxPart → List Use
  | .attribute _ none | .text _ => []
  | .attribute _ (some v) => v.uses
  | .spread e | .child e => e.uses
  | .container e => Expr.uses? e

def JsxPart.usesOf : List JsxPart → List Use
  | [] => []
  | p :: r => p.uses ++ JsxPart.usesOf r

def Property.uses : Property → List Use
  | .shorthand n e => .read n.text :: Expr.uses? e
  | .keyValue k e => k.uses ++ e.uses
  | .method k f => k.uses ++ f.uses
  | .getter _ k b => Use.aside (k.uses ++ Use.beyond (Stmt.bodyNamesOf b.stmts) b.uses)
  | .setter _ k q b =>
    Use.aside (k.uses ++ Use.beyond (q.boundNames ++ Stmt.bodyNamesOf b.stmts) (q.uses ++ b.uses))
  | .spread _ e => e.uses

def Property.usesOf : List Property → List Use
  | [] => []
  | p :: r => p.uses ++ Property.usesOf r

def Key.uses : Key → List Use
  | .computed _ e => e.uses
  | _ => []

def Pat.uses : Pat → List Use
  | .ident n => [.assigned n.text]
  | .elision => []
  | .array _ items => Pat.usesOf items
  | .object _ members => PatProperty.usesOf members
  | .rest _ q => q.uses
  | .withDefault _ q e => q.uses ++ e.uses
  | .expr e => e.uses

def Pat.usesOf : List Pat → List Use
  | [] => []
  | q :: r => q.uses ++ Pat.usesOf r

def Pat.uses? : Option Pat → List Use
  | none => []
  | some q => q.uses

def PatProperty.uses : PatProperty → List Use
  | .keyValue k q => k.uses ++ q.uses
  | .shorthand _ n e => .assigned n.text :: Expr.uses? e
  | .rest _ q => q.uses

def PatProperty.usesOf : List PatProperty → List Use
  | [] => []
  | p :: r => p.uses ++ PatProperty.usesOf r

def Function.uses : Function → List Use
  | .mk _ _ _ ds ps b =>
    Expr.usesOf ds ++ Use.aside (Use.beyond (Param.boundNamesOf ps ++ Block.bodyNames? b)
      (Param.usesOf ps ++ Block.uses? b))

def Param.uses : Param → List Use
  | .mk _ ds _ q => Expr.usesOf ds ++ q.uses

def Param.usesOf : List Param → List Use
  | [] => []
  | p :: r => p.uses ++ Param.usesOf r

def ArrowBody.uses : ArrowBody → List Use
  | .block b => b.uses
  | .expr e => e.uses

def Block.uses : Block → List Use
  | .mk _ stmts => Use.beyond (Stmt.declaredNamesOf stmts) (Stmt.usesOf stmts)

def Block.uses? : Option Block → List Use
  | none => []
  | some b => b.uses

def Class.uses : Class → List Use
  | .mk _ ds members parent =>
    Expr.usesOf ds ++ Expr.uses? parent ++ Use.aside (ClassMember.usesOf members)

def ClassMember.uses : ClassMember → List Use
  | .ctor _ _ ps b =>
    Use.beyond (Param.boundNamesOf ps ++ Block.bodyNames? b) (Param.usesOf ps ++ Block.uses? b)
  | .method _ k _ _ _ f => k.uses ++ f.uses
  | .property _ k _ _ _ v ds => k.uses ++ Expr.uses? v ++ Expr.usesOf ds
  | .staticBlock _ b => Use.beyond (Stmt.bodyNamesOf b.stmts) b.uses
  | .empty _ => []

def ClassMember.usesOf : List ClassMember → List Use
  | [] => []
  | m :: r => m.uses ++ ClassMember.usesOf r

def Stmt.uses : Stmt → List Use
  | .block b => b.uses
  | .withObject _ e s | .whileLoop _ e s | .doWhileLoop _ e s => e.uses ++ s.uses
  | .returnStmt _ e => Expr.uses? e
  | .labeled _ _ s => s.uses
  | .ifElse _ e yes no => e.uses ++ yes.uses ++ Stmt.uses? no
  | .switchOn _ e cases =>
    e.uses ++ Use.beyond (SwitchCase.declaredNamesOf cases) (SwitchCase.usesOf cases)
  | .throwStmt _ e | .expr _ e | .exportDefault _ e => e.uses
  | .tryStmt _ b c f => b.uses ++ Catch.uses? c ++ Block.uses? f
  | .forLoop _ h test update s =>
    Use.beyond h.declaredNames (h.uses ++ Expr.uses? test ++ Expr.uses? update ++ s.uses)
  | .forIn _ h e s | .forOf _ _ h e s => Use.beyond h.declaredNames (h.uses ++ e.uses ++ s.uses)
  | .varDecl d => d.uses
  | .func _ f | .exportDefaultFunc _ _ f => f.uses
  | .classDecl n c => Use.beyond [n.text] c.uses
  | .exportDefaultClass _ n c => Use.beyond (n.map Ident.text).toList c.uses
  | .exportDecl _ d => d.uses
  | .exportNames _ false names none => (names.filterMap ExportName.given?).map .read
  | .typed d => d.uses
  | .exportNames .. | .exportAll .. | .importNames .. | .empty _ | .debugger _ | .breakTo ..
  | .continueTo .. => []

def Stmt.uses? : Option Stmt → List Use
  | none => []
  | some s => s.uses

/-- Of statements, only the values of declarations count as assigning variables. -/
def Stmt.usesOf : List Stmt → List Use
  | [] => []
  | s :: r =>
    let uses := s.uses
    (if s.holdsValues then uses else uses.filter (!Use.isAssigned ·)) ++ Stmt.usesOf r

/-- Another name for a member is read only where it is given out; otherwise its own uses decide. A
namespace counts as a use of its name. -/
def TypedDecl.uses : TypedDecl → List Use
  | .enumeration _ _ _ _ members => Use.beyond (EnumMember.readable members) (EnumMember.usesOf members)
  | .namespace _ _ path stmts =>
    ((path.head?.map Ident.text).toList.map .read) ++
      Use.beyond (path.map Ident.text ++ Stmt.bodyNamesOf stmts)
        (Use.throughAliases (Stmt.aliasesOf stmts) (Stmt.usesOf stmts))
  | .importEquals _ true false name path =>
    ((path.head?.map Ident.text).toList ++ [name.text]).map .read
  | .exportAssign _ e => e.uses
  | .ambient _ d => d.uses
  | .ambientModule _ stmts =>
    Use.beyond (Stmt.bodyNamesOf stmts) (Use.throughAliases (Stmt.aliasesOf stmts) (Stmt.usesOf stmts))
  | .importEquals .. | .importRequire .. | .erased .. => []

def EnumMember.usesOf : List EnumMember → List Use
  | [] => []
  | .mk _ _ _ e :: r => Expr.uses? e ++ EnumMember.usesOf r

def VarDecl.uses : VarDecl → List Use
  | .mk _ _ _ items => Declarator.usesOf items

def Declarator.usesOf : List Declarator → List Use
  | [] => []
  | .mk _ q e :: r => q.uses ++ Expr.uses? e ++ Declarator.usesOf r

def SwitchCase.usesOf : List SwitchCase → List Use
  | [] => []
  | .mk _ e stmts :: r => Expr.uses? e ++ Stmt.usesOf stmts ++ SwitchCase.usesOf r

def Catch.uses? : Option Catch → List Use
  | none => []
  | some (.mk _ q b) => Use.beyond ((q.map Pat.boundNames).getD []) (Pat.uses? q ++ b.uses)

def LoopHead.uses : LoopHead → List Use
  | .none => []
  | .varDecl d => d.uses
  | .pat q => q.uses
  | .expr e => e.uses

end

/-- The names that a list of statements reads, also through other names that it gives them. -/
def Stmt.readNames (stmts : List Stmt) : List String :=
  (Use.throughAliases (Stmt.aliasesOf stmts) (Stmt.usesOf stmts)).filterMap Use.readName?

/-- The names that the values in a list of statements assign. -/
def Stmt.assignedNames (stmts : List Stmt) : List String :=
  (Stmt.usesOf stmts).filterMap Use.assignedName?

end StepTrace.Script
