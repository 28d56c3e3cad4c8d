import StepTrace.Script.Node

/-!
The normal form of a program: the body of a condition, of a loop and of `with` is a block, and so is the
body of a label, unless it is a loop, a label or a declaration. After that each statement that matters is
a member of a list of statements.
-/
namespace StepTrace.Script

namespace Stmt

/-- Where a statement was read. -/
def place : Stmt → Place
  | block b => b.place
  | empty p | debugger p | withObject p .. | returnStmt p _ | labeled p .. | breakTo p _
  | continueTo p _ | ifElse p .. | switchOn p .. | throwStmt p _ | tryStmt p .. | whileLoop p ..
  | doWhileLoop p .. | forLoop p .. | forIn p .. | forOf p .. | expr p _ | importNames p ..
  | exportDecl p _ | exportNames p .. | exportAll p .. | exportDefault p _ | exportDefaultFunc p ..
  | exportDefaultClass p .. => p
  | varDecl d => d.place
  | func _ f => f.place
  | classDecl _ c => c.place
  | typed d =>
    match d with
    | .enumeration p .. | .namespace p .. | .importEquals p .. | .importRequire p ..
    | .exportAssign p _ | .ambient p _ | .ambientModule p _ | .erased p _ => p

/-- The statement as a block; an empty statement is an empty block. -/
def asBlock : Stmt → Stmt
  | block b => block b
  | empty p => block (.mk p [])
  | s => block (.mk s.place [s])

/-- The second branch of a condition: a chain of conditions keeps its shape. -/
def asBranch : Stmt → Stmt
  | ifElse p test yes no => ifElse p test yes no
  | s => s.asBlock

/-- The body of a label. A jump to a loop needs the loop itself there. -/
def asLabelBody : Stmt → Stmt
  | labeled p l s => labeled p l s
  | forLoop p init test update s => forLoop p init test update s
  | forIn p h e s => forIn p h e s
  | forOf p a h e s => forOf p a h e s
  | whileLoop p e s => whileLoop p e s
  | doWhileLoop p e s => doWhileLoop p e s
  | varDecl d => varDecl d
  | func n f => func n f
  | classDecl n c => classDecl n c
  | s => s.asBlock

end Stmt

mutual

def Expr.normal : Expr → Expr
  | .template p chunks parts => .template p chunks (Expr.normals parts)
  | .tagged p tag chunks parts => .tagged p tag.normal chunks (Expr.normals parts)
  | .array p items => .array p (Expr.normals items)
  | .object p members => .object p (Property.normals members)
  | .func n f => .func n f.normal
  | .classExpr n c => .classExpr n c.normal
  | .arrow p a ps b => .arrow p a (Pat.normals ps) b.normal
  | .unary p op e => .unary p op e.normal
  | .update p op pre e => .update p op pre e.normal
  | .binary p op l r => .binary p op l.normal r.normal
  | .assign p op q e => .assign p op q.normal e.normal
  | .cond p a b c => .cond p a.normal b.normal c.normal
  | .member p l e n => .member p l e.normal n
  | .index p l e k => .index p l e.normal k.normal
  | .call p l e args => .call p l e.normal (Expr.normals args)
  | .construct p e h args => .construct p e.normal h (Expr.normals args)
  | .sequence p items => .sequence p (Expr.normals items)
  | .paren p e => .paren p e.normal
  | .await p e => .await p e.normal
  | .yield p d none => .yield p d none
  | .yield p d (some e) => .yield p d (some e.normal)
  | .spread p e => .spread p e.normal
  | .element p n c as_ cs => .element p n c (JsxPart.normals as_) (JsxPart.normals cs)
  | .ascribed p h e => .ascribed p h e.normal
  | .this p => .this p
  | .superRef p => .superRef p
  | .importRef p => .importRef p
  | .ident n => .ident n
  | .literal p v => .literal p v
  | .metaProperty p m => .metaProperty p m
  | .elision => .elision

def Expr.normals : List Expr → List Expr
  | [] => []
  | e :: r => e.normal :: Expr.normals r

def JsxPart.normal : JsxPart → JsxPart
  | .attribute n none => .attribute n none
  | .attribute n (some v) => .attribute n (some v.normal)
  | .spread e => .spread e.normal
  | .text s => .text s
  | .container none => .container none
  | .container (some e) => .container (some e.normal)
  | .child e => .child e.normal

def JsxPart.normals : List JsxPart → List JsxPart
  | [] => []
  | p :: r => p.normal :: JsxPart.normals r

def Property.normal : Property → Property
  | .shorthand n none => .shorthand n none
  | .shorthand n (some e) => .shorthand n (some e.normal)
  | .keyValue k e => .keyValue k.normal e.normal
  | .method k f => .method k.normal f.normal
  | .getter p k b => .getter p k.normal b.normal
  | .setter p k q b => .setter p k.normal q.normal b.normal
  | .spread p e => .spread p e.normal

def Property.normals : List Property → List Property
  | [] => []
  | p :: r => p.normal :: Property.normals r

def Key.normal : Key → Key
  | .name n => .name n
  | .literal p v => .literal p v
  | .computed p e => .computed p e.normal

def Pat.normal : Pat → Pat
  | .ident n => .ident n
  | .elision => .elision
  | .array p items => .array p (Pat.normals items)
  | .object p members => .object p (PatProperty.normals members)
  | .rest p q => .rest p q.normal
  | .withDefault p q e => .withDefault p q.normal e.normal
  | .expr e => .expr e.normal

def Pat.normals : List Pat → List Pat
  | [] => []
  | q :: r => q.normal :: Pat.normals r

def PatProperty.normal : PatProperty → PatProperty
  | .keyValue k q => .keyValue k.normal q.normal
  | .shorthand p n none => .shorthand p n none
  | .shorthand p n (some e) => .shorthand p n (some e.normal)
  | .rest p q => .rest p q.normal

def PatProperty.normals : List PatProperty → List PatProperty
  | [] => []
  | p :: r => p.normal :: PatProperty.normals r

def Function.normal : Function → Function
  | .mk p a g ds ps none => .mk p a g (Expr.normals ds) (Param.normals ps) none
  | .mk p a g ds ps (some b) => .mk p a g (Expr.normals ds) (Param.normals ps) (some b.normal)

def Param.normal : Param → Param
  | .mk p ds i q => .mk p (Expr.normals ds) i q.normal

def Param.normals : List Param → List Param
  | [] => []
  | p :: r => p.normal :: Param.normals r

def ArrowBody.normal : ArrowBody → ArrowBody
  | .block b => .block b.normal
  | .expr e => .expr e.normal

def Block.normal : Block → Block
  | .mk p stmts => .mk p (Stmt.normals stmts)

def Class.normal : Class → Class
  | .mk p ds members none => .mk p (Expr.normals ds) (ClassMember.normals members) none
  | .mk p ds members (some e) =>
    .mk p (Expr.normals ds) (ClassMember.normals members) (some e.normal)

def ClassMember.normal : ClassMember → ClassMember
  | .ctor p k ps none => .ctor p k (Param.normals ps) none
  | .ctor p k ps (some b) => .ctor p k (Param.normals ps) (some b.normal)
  | .method p k kind s e f => .method p k.normal kind s e f.normal
  | .property p k s e a none ds => .property p k.normal s e a none (Expr.normals ds)
  | .property p k s e a (some v) ds => .property p k.normal s e a (some v.normal) (Expr.normals ds)
  | .staticBlock p b => .staticBlock p b.normal
  | .empty p => .empty p

def ClassMember.normals : List ClassMember → List ClassMember
  | [] => []
  | m :: r => m.normal :: ClassMember.normals r

def Stmt.normal : Stmt → Stmt
  | .block b => .block b.normal
  | .empty p => .empty p
  | .debugger p => .debugger p
  | .withObject p e s => .withObject p e.normal s.normal.asBlock
  | .returnStmt p none => .returnStmt p none
  | .returnStmt p (some e) => .returnStmt p (some e.normal)
  | .labeled p l s => .labeled p l s.normal.asLabelBody
  | .breakTo p l => .breakTo p l
  | .continueTo p l => .continueTo p l
  | .ifElse p e yes none => .ifElse p e.normal yes.normal.asBlock none
  | .ifElse p e yes (some no) => .ifElse p e.normal yes.normal.asBlock (some no.normal.asBranch)
  | .switchOn p e cases => .switchOn p e.normal (SwitchCase.normals cases)
  | .throwStmt p e => .throwStmt p e.normal
  | .tryStmt p b none none => .tryStmt p b.normal none none
  | .tryStmt p b (some c) none => .tryStmt p b.normal (some c.normal) none
  | .tryStmt p b none (some f) => .tryStmt p b.normal none (some f.normal)
  | .tryStmt p b (some c) (some f) => .tryStmt p b.normal (some c.normal) (some f.normal)
  | .whileLoop p e s => .whileLoop p e.normal s.normal.asBlock
  | .doWhileLoop p e s => .doWhileLoop p e.normal s.normal.asBlock
  | .forLoop p h test update s =>
    .forLoop p h.normal (Expr.normal? test) (Expr.normal? update) s.normal.asBlock
  | .forIn p h e s => .forIn p h.normal e.normal s.normal.asBlock
  | .forOf p a h e s => .forOf p a h.normal e.normal s.normal.asBlock
  | .varDecl d => .varDecl d.normal
  | .func n f => .func n f.normal
  | .classDecl n c => .classDecl n c.normal
  | .expr p e => .expr p e.normal
  | .importNames p t ns m => .importNames p t ns m
  | .exportDecl p d => .exportDecl p d.normal
  | .exportNames p t ns m => .exportNames p t ns m
  | .exportAll p t m => .exportAll p t m
  | .exportDefault p e => .exportDefault p e.normal
  | .exportDefaultFunc p n f => .exportDefaultFunc p n f.normal
  | .exportDefaultClass p n c => .exportDefaultClass p n c.normal
  | .typed d => .typed d

def Expr.normal? : Option Expr → Option Expr
  | none => none
  | some e => some e.normal

def Stmt.normals : List Stmt → List Stmt
  | [] => []
  | s :: r => s.normal :: Stmt.normals r

def VarDecl.normal : VarDecl → VarDecl
  | .mk p k d items => .mk p k d (Declarator.normals items)

def Declarator.normal : Declarator → Declarator
  | .mk p q none => .mk p q.normal none
  | .mk p q (some e) => .mk p q.normal (some e.normal)

def Declarator.normals : List Declarator → List Declarator
  | [] => []
  | d :: r => d.normal :: Declarator.normals r

def SwitchCase.normal : SwitchCase → SwitchCase
  | .mk p none stmts => .mk p none (Stmt.normals stmts)
  | .mk p (some e) stmts => .mk p (some e.normal) (Stmt.normals stmts)

def SwitchCase.normals : List SwitchCase → List SwitchCase
  | [] => []
  | c :: r => c.normal :: SwitchCase.normals r

def Catch.normal : Catch → Catch
  | .mk p none b => .mk p none b.normal
  | .mk p (some q) b => .mk p (some q.normal) b.normal

def LoopHead.normal : LoopHead → LoopHead
  | .none => .none
  | .varDecl d => .varDecl d.normal
  | .pat q => .pat q.normal
  | .expr e => .expr e.normal

end

/-- The normal form of a program. -/
def Program.normal (p : Program) : Program := { p with body := Stmt.normals p.body }

end StepTrace.Script
