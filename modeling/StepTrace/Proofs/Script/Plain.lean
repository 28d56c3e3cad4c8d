import StepTrace.Proofs.Script.Scoping

/-!
Programs whose shape a traversal of scopes can follow. What stands before a function but is traversed inside
its scope holds no statement, a static block of a class declares no `var`, and no call looks like a probe.
-/
namespace StepTrace.Script

/-! ### Expressions without statements -/

mutual

/-- No statement stands inside: the bodies of arrow functions are expressions, and there are no other
functions and no classes. No call looks like a probe either. -/
def Expr.isFlat : Expr → Bool
  | .template _ _ parts => Expr.areFlat parts
  | .tagged _ tag _ parts => tag.isFlat && Expr.areFlat parts
  | .array _ items | .sequence _ items => Expr.areFlat items
  | .object _ members => Property.areFlat members
  | .func .. | .classExpr .. => false
  | .arrow _ _ ps b => Pat.areFlat ps && b.isFlat
  | .unary _ _ e | .update _ _ _ e | .member _ _ e _ | .paren _ e | .await _ e | .spread _ e
  | .ascribed _ _ e => e.isFlat
  | .binary _ _ l r | .index _ _ l r => l.isFlat && r.isFlat
  | .assign _ _ q e => q.isFlat && e.isFlat
  | .cond _ a b c => a.isFlat && b.isFlat && c.isFlat
  | .call p _ e args => !e.isProbeCall p && e.isFlat && Expr.areFlat args
  | .construct _ e _ args => e.isFlat && Expr.areFlat args
  | .yield _ _ e => Expr.isFlat? e
  | .element _ _ _ as_ cs => JsxPart.areFlat as_ && JsxPart.areFlat cs
  | .this _ | .superRef _ | .importRef _ | .ident _ | .literal .. | .metaProperty .. | .elision => true

def Expr.areFlat : List Expr → Bool
  | [] => true
  | e :: r => e.isFlat && Expr.areFlat r

def Expr.isFlat? : Option Expr → Bool
  | none => true
  | some e => e.isFlat

def JsxPart.isFlat : JsxPart → Bool
  | .attribute _ none | .text _ => true
  | .attribute _ (some v) => v.isFlat
  | .spread e | .child e => e.isFlat
  | .container e => Expr.isFlat? e

def JsxPart.areFlat : List JsxPart → Bool
  | [] => true
  | p :: r => p.isFlat && JsxPart.areFlat r

def Property.isFlat : Property → Bool
  | .shorthand _ e => Expr.isFlat? e
  | .keyValue k e => k.isFlat && e.isFlat
  | .method .. | .getter .. | .setter .. => false
  | .spread _ e => e.isFlat

def Property.areFlat : List Property → Bool
  | [] => true
  | p :: r => p.isFlat && Property.areFlat r

def Key.isFlat : Key → Bool
  | .computed _ e => e.isFlat
  | .name _ | .literal .. => true

def Pat.isFlat : Pat → Bool
  | .ident _ | .elision => true
  | .array _ items => Pat.areFlat items
  | .object _ members => PatProperty.areFlat members
  | .rest _ q => q.isFlat
  | .withDefault _ q e => q.isFlat && e.isFlat
  | .expr e => e.isFlat

def Pat.areFlat : List Pat → Bool
  | [] => true
  | q :: r => q.isFlat && Pat.areFlat r

def PatProperty.isFlat : PatProperty → Bool
  | .keyValue k q => k.isFlat && q.isFlat
  | .shorthand _ _ e => Expr.isFlat? e
  | .rest _ q => q.isFlat

def PatProperty.areFlat : List PatProperty → Bool
  | [] => true
  | p :: r => p.isFlat && PatProperty.areFlat r

def ArrowBody.isFlat : ArrowBody → Bool
  | .block _ => false
  | .expr e => e.isFlat

end

/-! ### Programs without surprises for a traversal -/

mutual

/-- The parts of a program are plain. A call is, unless it looks like a probe. -/
def Expr.isPlain : Expr → Bool
  | .template _ _ parts => Expr.arePlain parts
  | .tagged _ tag _ parts => tag.isPlain && Expr.arePlain parts
  | .array _ items | .sequence _ items => Expr.arePlain items
  | .object _ members => Property.arePlain members
  | .func _ f => f.isPlain
  | .classExpr _ c => c.isPlain
  | .arrow _ _ ps b => Pat.arePlain ps && b.isPlain
  | .unary _ _ e | .update _ _ _ e | .member _ _ e _ | .paren _ e | .await _ e | .spread _ e
  | .ascribed _ _ e => e.isPlain
  | .binary _ _ l r | .index _ _ l r => l.isPlain && r.isPlain
  | .assign _ _ q e => q.isPlain && e.isPlain
  | .cond _ a b c => a.isPlain && b.isPlain && c.isPlain
  | .call p _ e args => !e.isProbeCall p && e.isPlain && Expr.arePlain args
  | .construct _ e _ args => e.isPlain && Expr.arePlain args
  | .yield _ _ e => Expr.isPlain? e
  | .element _ _ _ as_ cs => JsxPart.arePlain as_ && JsxPart.arePlain cs
  | .this _ | .superRef _ | .importRef _ | .ident _ | .literal .. | .metaProperty .. | .elision => true

def Expr.arePlain : List Expr → Bool
  | [] => true
  | e :: r => e.isPlain && Expr.arePlain r

def Expr.isPlain? : Option Expr → Bool
  | none => true
  | some e => e.isPlain

def JsxPart.isPlain : JsxPart → Bool
  | .attribute _ none | .text _ => true
  | .attribute _ (some v) => v.isPlain
  | .spread e | .child e => e.isPlain
  | .container e => Expr.isPlain? e

def JsxPart.arePlain : List JsxPart → Bool
  | [] => true
  | p :: r => p.isPlain && JsxPart.arePlain r

/-- The key of a setter is traversed with the parameter in scope. -/
def Property.isPlain : Property → Bool
  | .shorthand _ e => Expr.isPlain? e
  | .keyValue k e => k.isPlain && e.isPlain
  | .method k f => k.isPlain && f.isPlain
  | .getter _ k b => k.isPlain && b.isPlain
  | .setter _ k q b => (q.boundNames.isEmpty || k.isFlat) && k.isPlain && q.isPlain && b.isPlain
  | .spread _ e => e.isPlain

def Property.arePlain : List Property → Bool
  | [] => true
  | p :: r => p.isPlain && Property.arePlain r

def Key.isPlain : Key → Bool
  | .computed _ e => e.isPlain
  | .name _ | .literal .. => true

def Pat.isPlain : Pat → Bool
  | .ident _ | .elision => true
  | .array _ items => Pat.arePlain items
  | .object _ members => PatProperty.arePlain members
  | .rest _ q => q.isPlain
  | .withDefault _ q e => q.isPlain && e.isPlain
  | .expr e => e.isPlain

def Pat.arePlain : List Pat → Bool
  | [] => true
  | q :: r => q.isPlain && Pat.arePlain r

def Pat.isPlain? : Option Pat → Bool
  | none => true
  | some q => q.isPlain

def PatProperty.isPlain : PatProperty → Bool
  | .keyValue k q => k.isPlain && q.isPlain
  | .shorthand _ _ e => Expr.isPlain? e
  | .rest _ q => q.isPlain

def PatProperty.arePlain : List PatProperty → Bool
  | [] => true
  | p :: r => p.isPlain && PatProperty.arePlain r

/-- The decorators of a function are traversed with its parameters in scope. -/
def Function.isPlain : Function → Bool
  | .mk _ _ _ ds ps b =>
    ((Param.boundNamesOf ps).isEmpty || Expr.areFlat ds) && Expr.arePlain ds &&
      Param.arePlain (Param.boundNamesOf ps) ps && Block.isPlain? b

/-- A parameter of a function all of whose parameters bind `names`. -/
def Param.isPlain (names : List String) : Param → Bool
  | .mk _ ds _ q => (names.isEmpty || Expr.areFlat ds) && Expr.arePlain ds && q.isPlain

def Param.arePlain (names : List String) : List Param → Bool
  | [] => true
  | p :: r => p.isPlain names && Param.arePlain names r

def ArrowBody.isPlain : ArrowBody → Bool
  | .block b => b.isPlain
  | .expr e => e.isPlain

def Block.isPlain : Block → Bool
  | .mk _ ss => Stmt.arePlain ss

def Block.isPlain? : Option Block → Bool
  | none => true
  | some b => b.isPlain

def Class.isPlain : Class → Bool
  | .mk _ ds members parent =>
    Expr.arePlain ds && ClassMember.arePlain members && Expr.isPlain? parent

/-- A static block opens no scope for what it declares by `var`. -/
def ClassMember.isPlain : ClassMember → Bool
  | .ctor _ _ ps b => Param.arePlain (Param.boundNamesOf ps) ps && Block.isPlain? b
  | .method _ k _ _ _ f => k.isPlain && f.isPlain
  | .property _ k _ _ _ v ds => k.isPlain && Expr.isPlain? v && Expr.arePlain ds
  | .staticBlock _ b => b.varNames.isEmpty && b.isPlain
  | .empty _ => true

def ClassMember.arePlain : List ClassMember → Bool
  | [] => true
  | m :: r => m.isPlain && ClassMember.arePlain r

def Stmt.isPlain : Stmt → Bool
  | .block b => b.isPlain
  | .withObject _ e s | .whileLoop _ e s | .doWhileLoop _ e s => e.isPlain && s.isPlain
  | .returnStmt _ e => Expr.isPlain? e
  | .labeled _ _ s | .exportDecl _ s => s.isPlain
  | .ifElse _ e yes no => e.isPlain && yes.isPlain && Stmt.isPlain? no
  | .switchOn _ e cases => e.isPlain && SwitchCase.arePlain cases
  | .throwStmt _ e | .expr _ e | .exportDefault _ e => e.isPlain
  | .tryStmt _ b c f => b.isPlain && Catch.isPlain? c && Block.isPlain? f
  | .forLoop _ h test update s =>
    h.isPlain && Expr.isPlain? test && Expr.isPlain? update && s.isPlain
  | .forIn _ h e s | .forOf _ _ h e s => h.isPlain && e.isPlain && s.isPlain
  | .varDecl d => d.isPlain
  | .func _ f | .exportDefaultFunc _ _ f => f.isPlain
  | .classDecl _ c | .exportDefaultClass _ _ c => c.isPlain
  | .empty _ | .debugger _ | .breakTo .. | .continueTo .. | .importNames .. | .exportNames ..
  | .exportAll .. | .typed _ => true

def Stmt.isPlain? : Option Stmt → Bool
  | none => true
  | some s => s.isPlain

def Stmt.arePlain : List Stmt → Bool
  | [] => true
  | s :: r => s.isPlain && Stmt.arePlain r

def VarDecl.isPlain : VarDecl → Bool
  | .mk _ _ _ items => Declarator.arePlain items

def Declarator.isPlain : Declarator → Bool
  | .mk _ q e => q.isPlain && Expr.isPlain? e

def Declarator.arePlain : List Declarator → Bool
  | [] => true
  | d :: r => d.isPlain && Declarator.arePlain r

def SwitchCase.isPlain : SwitchCase → Bool
  | .mk _ e ss => Expr.isPlain? e && Stmt.arePlain ss

def SwitchCase.arePlain : List SwitchCase → Bool
  | [] => true
  | c :: r => c.isPlain && SwitchCase.arePlain r

def Catch.isPlain : Catch → Bool
  | .mk _ q b => Pat.isPlain? q && b.isPlain

def Catch.isPlain? : Option Catch → Bool
  | none => true
  | some c => c.isPlain

def LoopHead.isPlain : LoopHead → Bool
  | .none => true
  | .varDecl d => d.isPlain
  | .pat q => q.isPlain
  | .expr e => e.isPlain

end

def Program.isPlain (p : Program) : Bool := Stmt.arePlain p.body

end StepTrace.Script
