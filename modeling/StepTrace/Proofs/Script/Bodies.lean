import Mathlib.Tactic.TermCongr
import StepTrace.Script.NormalForm

/-!
The bodies of functions in an expression. Statements stand in an expression only where a function, an
accessor, a constructor or the static block of a class has its body, so the normal form of an expression
differs from the expression in such bodies only.
-/
namespace StepTrace.Script

/-! ### Putting other bodies in

Only the outermost bodies are exchanged; what is inside of one is the business of the exchange. -/

section

variable (f : Block → Block)

mutual

def Expr.mapBodies : Expr → Expr
  | .template p chunks parts => .template p chunks (Expr.mapBodiesOf parts)
  | .tagged p tag chunks parts => .tagged p tag.mapBodies chunks (Expr.mapBodiesOf parts)
  | .array p items => .array p (Expr.mapBodiesOf items)
  | .object p members => .object p (Property.mapBodiesOf members)
  | .func n g => .func n g.mapBodies
  | .classExpr n c => .classExpr n c.mapBodies
  | .arrow p a ps b => .arrow p a (Pat.mapBodiesOf ps) b.mapBodies
  | .unary p op e => .unary p op e.mapBodies
  | .update p op pre e => .update p op pre e.mapBodies
  | .binary p op l r => .binary p op l.mapBodies r.mapBodies
  | .assign p op q e => .assign p op q.mapBodies e.mapBodies
  | .cond p a b c => .cond p a.mapBodies b.mapBodies c.mapBodies
  | .member p l e n => .member p l e.mapBodies n
  | .index p l e k => .index p l e.mapBodies k.mapBodies
  | .call p l e args => .call p l e.mapBodies (Expr.mapBodiesOf args)
  | .construct p e h args => .construct p e.mapBodies h (Expr.mapBodiesOf args)
  | .sequence p items => .sequence p (Expr.mapBodiesOf items)
  | .paren p e => .paren p e.mapBodies
  | .await p e => .await p e.mapBodies
  | .yield p d e => .yield p d (Expr.mapBodies? e)
  | .spread p e => .spread p e.mapBodies
  | .element p n c as_ cs => .element p n c (JsxPart.mapBodiesOf as_) (JsxPart.mapBodiesOf cs)
  | .ascribed p h e => .ascribed p h e.mapBodies
  | e => e

def Expr.mapBodiesOf : List Expr → List Expr
  | [] => []
  | e :: r => e.mapBodies :: Expr.mapBodiesOf r

def Expr.mapBodies? : Option Expr → Option Expr
  | none => none
  | some e => some e.mapBodies

def JsxPart.mapBodies : JsxPart → JsxPart
  | .attribute n none => .attribute n none
  | .attribute n (some v) => .attribute n (some v.mapBodies)
  | .spread e => .spread e.mapBodies
  | .text s => .text s
  | .container e => .container (Expr.mapBodies? e)
  | .child e => .child e.mapBodies

def JsxPart.mapBodiesOf : List JsxPart → List JsxPart
  | [] => []
  | p :: r => p.mapBodies :: JsxPart.mapBodiesOf r

def Property.mapBodies : Property → Property
  | .shorthand n e => .shorthand n (Expr.mapBodies? e)
  | .keyValue k e => .keyValue k.mapBodies e.mapBodies
  | .method k g => .method k.mapBodies g.mapBodies
  | .getter p k b => .getter p k.mapBodies (f b)
  | .setter p k q b => .setter p k.mapBodies q.mapBodies (f b)
  | .spread p e => .spread p e.mapBodies

def Property.mapBodiesOf : List Property → List Property
  | [] => []
  | p :: r => p.mapBodies :: Property.mapBodiesOf r

def Key.mapBodies : Key → Key
  | .computed p e => .computed p e.mapBodies
  | k => k

def Pat.mapBodies : Pat → Pat
  | .ident n => .ident n
  | .elision => .elision
  | .array p items => .array p (Pat.mapBodiesOf items)
  | .object p members => .object p (PatProperty.mapBodiesOf members)
  | .rest p q => .rest p q.mapBodies
  | .withDefault p q e => .withDefault p q.mapBodies e.mapBodies
  | .expr e => .expr e.mapBodies

def Pat.mapBodiesOf : List Pat → List Pat
  | [] => []
  | q :: r => q.mapBodies :: Pat.mapBodiesOf r

def PatProperty.mapBodies : PatProperty → PatProperty
  | .keyValue k q => .keyValue k.mapBodies q.mapBodies
  | .shorthand p n e => .shorthand p n (Expr.mapBodies? e)
  | .rest p q => .rest p q.mapBodies

def PatProperty.mapBodiesOf : List PatProperty → List PatProperty
  | [] => []
  | p :: r => p.mapBodies :: PatProperty.mapBodiesOf r

def Function.mapBodies : Function → Function
  | .mk p a g ds ps b => .mk p a g (Expr.mapBodiesOf ds) (Param.mapBodiesOf ps) (b.map f)

def Param.mapBodies : Param → Param
  | .mk p ds i q => .mk p (Expr.mapBodiesOf ds) i q.mapBodies

def Param.mapBodiesOf : List Param → List Param
  | [] => []
  | p :: r => p.mapBodies :: Param.mapBodiesOf r

def ArrowBody.mapBodies : ArrowBody → ArrowBody
  | .block b => .block (f b)
  | .expr e => .expr e.mapBodies

def Class.mapBodies : Class → Class
  | .mk p ds members parent =>
    .mk p (Expr.mapBodiesOf ds) (ClassMember.mapBodiesOf members) (Expr.mapBodies? parent)

def ClassMember.mapBodies : ClassMember → ClassMember
  | .ctor p k ps b => .ctor p k (Param.mapBodiesOf ps) (b.map f)
  | .method p k kind s e g => .method p k.mapBodies kind s e g.mapBodies
  | .property p k s e a v ds =>
    .property p k.mapBodies s e a (Expr.mapBodies? v) (Expr.mapBodiesOf ds)
  | .staticBlock p b => .staticBlock p (f b)
  | .empty p => .empty p

def ClassMember.mapBodiesOf : List ClassMember → List ClassMember
  | [] => []
  | m :: r => m.mapBodies :: ClassMember.mapBodiesOf r

end

def Declarator.mapBodies : Declarator → Declarator
  | .mk p q e => .mk p (q.mapBodies f) (Expr.mapBodies? f e)

def VarDecl.mapBodies : VarDecl → VarDecl
  | .mk p k d items => .mk p k d (items.map (Declarator.mapBodies f))

def LoopHead.mapBodies : LoopHead → LoopHead
  | .none => .none
  | .varDecl d => .varDecl (d.mapBodies f)
  | .pat q => .pat (q.mapBodies f)
  | .expr e => .expr (e.mapBodies f)

/-- A declaration with other bodies in it. -/
def Stmt.mapBodies : Stmt → Stmt
  | .varDecl d => .varDecl (d.mapBodies f)
  | .func n g => .func n (g.mapBodies f)
  | .classDecl n c => .classDecl n (c.mapBodies f)
  | .exportDefault p e => .exportDefault p (e.mapBodies f)
  | .exportDefaultFunc p n g => .exportDefaultFunc p n (g.mapBodies f)
  | .exportDefaultClass p n c => .exportDefaultClass p n (c.mapBodies f)
  | s => s

end

/-! ### The normal form of an expression -/

mutual

theorem Expr.mapBodies_normal (e : Expr) : e.mapBodies Block.normal = e.normal := by
  cases e with
  | template p chunks parts => exact congr(Expr.template p chunks $(Expr.mapBodiesOf_normal parts))
  | tagged p tag chunks parts =>
    exact congr(Expr.tagged p $(tag.mapBodies_normal) chunks $(Expr.mapBodiesOf_normal parts))
  | array p items => exact congr(Expr.array p $(Expr.mapBodiesOf_normal items))
  | object p members => exact congr(Expr.object p $(Property.mapBodiesOf_normal members))
  | func n g => exact congr(Expr.func n $(g.mapBodies_normal))
  | classExpr n c => exact congr(Expr.classExpr n $(c.mapBodies_normal))
  | arrow p a ps b => exact congr(Expr.arrow p a $(Pat.mapBodiesOf_normal ps) $(b.mapBodies_normal))
  | unary p op e => exact congr(Expr.unary p op $(e.mapBodies_normal))
  | update p op pre e => exact congr(Expr.update p op pre $(e.mapBodies_normal))
  | binary p op l r => exact congr(Expr.binary p op $(l.mapBodies_normal) $(r.mapBodies_normal))
  | assign p op q e => exact congr(Expr.assign p op $(q.mapBodies_normal) $(e.mapBodies_normal))
  | cond p a b c =>
    exact congr(Expr.cond p $(a.mapBodies_normal) $(b.mapBodies_normal) $(c.mapBodies_normal))
  | member p l e n => exact congr(Expr.member p l $(e.mapBodies_normal) n)
  | index p l e k => exact congr(Expr.index p l $(e.mapBodies_normal) $(k.mapBodies_normal))
  | call p l e args => exact congr(Expr.call p l $(e.mapBodies_normal) $(Expr.mapBodiesOf_normal args))
  | construct p e h args =>
    exact congr(Expr.construct p $(e.mapBodies_normal) h $(Expr.mapBodiesOf_normal args))
  | sequence p items => exact congr(Expr.sequence p $(Expr.mapBodiesOf_normal items))
  | paren p e => exact congr(Expr.paren p $(e.mapBodies_normal))
  | await p e => exact congr(Expr.await p $(e.mapBodies_normal))
  | yield p d e =>
    cases e with
    | none => rfl
    | some e => exact congr(Expr.yield p d (some $(e.mapBodies_normal)))
  | spread p e => exact congr(Expr.spread p $(e.mapBodies_normal))
  | element p n c as_ cs =>
    exact congr(Expr.element p n c $(JsxPart.mapBodiesOf_normal as_) $(JsxPart.mapBodiesOf_normal cs))
  | ascribed p how e => exact congr(Expr.ascribed p how $(e.mapBodies_normal))
  | this | superRef | importRef | ident | literal | metaProperty | elision => rfl

theorem Expr.mapBodiesOf_normal (es : List Expr) :
    Expr.mapBodiesOf Block.normal es = Expr.normals es := by
  cases es with
  | nil => rfl
  | cons e r => exact congr($(e.mapBodies_normal) :: $(Expr.mapBodiesOf_normal r))

theorem JsxPart.mapBodies_normal (p : JsxPart) : p.mapBodies Block.normal = p.normal := by
  match p with
  | .attribute n none | .text v | .container none => rfl
  | .attribute n (some v) => exact congr(JsxPart.attribute n (some $(v.mapBodies_normal)))
  | .spread e => exact congr(JsxPart.spread $(e.mapBodies_normal))
  | .container (some e) => exact congr(JsxPart.container (some $(e.mapBodies_normal)))
  | .child e => exact congr(JsxPart.child $(e.mapBodies_normal))

theorem JsxPart.mapBodiesOf_normal (ps : List JsxPart) :
    JsxPart.mapBodiesOf Block.normal ps = JsxPart.normals ps := by
  cases ps with
  | nil => rfl
  | cons p r => exact congr($(p.mapBodies_normal) :: $(JsxPart.mapBodiesOf_normal r))

theorem Property.mapBodies_normal (p : Property) : p.mapBodies Block.normal = p.normal := by
  match p with
  | .shorthand n none => rfl
  | .shorthand n (some e) => exact congr(Property.shorthand n (some $(e.mapBodies_normal)))
  | .keyValue k e => exact congr(Property.keyValue $(k.mapBodies_normal) $(e.mapBodies_normal))
  | .method k g => exact congr(Property.method $(k.mapBodies_normal) $(g.mapBodies_normal))
  | .getter p k b => exact congr(Property.getter p $(k.mapBodies_normal) b.normal)
  | .setter p k q b =>
    exact congr(Property.setter p $(k.mapBodies_normal) $(q.mapBodies_normal) b.normal)
  | .spread p e => exact congr(Property.spread p $(e.mapBodies_normal))

theorem Property.mapBodiesOf_normal (ps : List Property) :
    Property.mapBodiesOf Block.normal ps = Property.normals ps := by
  cases ps with
  | nil => rfl
  | cons p r => exact congr($(p.mapBodies_normal) :: $(Property.mapBodiesOf_normal r))

theorem Key.mapBodies_normal (k : Key) : k.mapBodies Block.normal = k.normal := by
  cases k with
  | computed p e => exact congr(Key.computed p $(e.mapBodies_normal))
  | name | literal => rfl

theorem Pat.mapBodies_normal (q : Pat) : q.mapBodies Block.normal = q.normal := by
  cases q with
  | ident | elision => rfl
  | array p items => exact congr(Pat.array p $(Pat.mapBodiesOf_normal items))
  | object p members => exact congr(Pat.object p $(PatProperty.mapBodiesOf_normal members))
  | rest p q => exact congr(Pat.rest p $(q.mapBodies_normal))
  | withDefault p q e => exact congr(Pat.withDefault p $(q.mapBodies_normal) $(e.mapBodies_normal))
  | expr e => exact congr(Pat.expr $(e.mapBodies_normal))

theorem Pat.mapBodiesOf_normal (qs : List Pat) :
    Pat.mapBodiesOf Block.normal qs = Pat.normals qs := by
  cases qs with
  | nil => rfl
  | cons q r => exact congr($(q.mapBodies_normal) :: $(Pat.mapBodiesOf_normal r))

theorem PatProperty.mapBodies_normal (p : PatProperty) : p.mapBodies Block.normal = p.normal := by
  match p with
  | .keyValue k q => exact congr(PatProperty.keyValue $(k.mapBodies_normal) $(q.mapBodies_normal))
  | .shorthand p n none => rfl
  | .shorthand p n (some e) => exact congr(PatProperty.shorthand p n (some $(e.mapBodies_normal)))
  | .rest p q => exact congr(PatProperty.rest p $(q.mapBodies_normal))

theorem PatProperty.mapBodiesOf_normal (ps : List PatProperty) :
    PatProperty.mapBodiesOf Block.normal ps = PatProperty.normals ps := by
  cases ps with
  | nil => rfl
  | cons p r => exact congr($(p.mapBodies_normal) :: $(PatProperty.mapBodiesOf_normal r))

theorem Function.mapBodies_normal (g : Function) : g.mapBodies Block.normal = g.normal := by
  match g with
  | .mk p a g ds ps none =>
    exact congr(Function.mk p a g $(Expr.mapBodiesOf_normal ds) $(Param.mapBodiesOf_normal ps) none)
  | .mk p a g ds ps (some b) =>
    exact congr(Function.mk p a g $(Expr.mapBodiesOf_normal ds) $(Param.mapBodiesOf_normal ps)
      (some b.normal))

theorem Param.mapBodies_normal (p : Param) : p.mapBodies Block.normal = p.normal := by
  cases p with
  | mk p ds i q => exact congr(Param.mk p $(Expr.mapBodiesOf_normal ds) i $(q.mapBodies_normal))

theorem Param.mapBodiesOf_normal (ps : List Param) :
    Param.mapBodiesOf Block.normal ps = Param.normals ps := by
  cases ps with
  | nil => rfl
  | cons p r => exact congr($(p.mapBodies_normal) :: $(Param.mapBodiesOf_normal r))

theorem ArrowBody.mapBodies_normal (b : ArrowBody) : b.mapBodies Block.normal = b.normal := by
  cases b with
  | block b => rfl
  | expr e => exact congr(ArrowBody.expr $(e.mapBodies_normal))

theorem Class.mapBodies_normal (c : Class) : c.mapBodies Block.normal = c.normal := by
  match c with
  | .mk p ds members none =>
    exact congr(Class.mk p $(Expr.mapBodiesOf_normal ds) $(ClassMember.mapBodiesOf_normal members) none)
  | .mk p ds members (some e) =>
    exact congr(Class.mk p $(Expr.mapBodiesOf_normal ds) $(ClassMember.mapBodiesOf_normal members)
      (some $(e.mapBodies_normal)))

theorem ClassMember.mapBodies_normal (m : ClassMember) : m.mapBodies Block.normal = m.normal := by
  match m with
  | .ctor p k ps none => exact congr(ClassMember.ctor p k $(Param.mapBodiesOf_normal ps) none)
  | .ctor p k ps (some b) =>
    exact congr(ClassMember.ctor p k $(Param.mapBodiesOf_normal ps) (some b.normal))
  | .method p k kind s e g =>
    exact congr(ClassMember.method p $(k.mapBodies_normal) kind s e $(g.mapBodies_normal))
  | .property p k s e a none ds =>
    exact congr(ClassMember.property p $(k.mapBodies_normal) s e a none $(Expr.mapBodiesOf_normal ds))
  | .property p k s e a (some v) ds =>
    exact congr(ClassMember.property p $(k.mapBodies_normal) s e a (some $(v.mapBodies_normal))
      $(Expr.mapBodiesOf_normal ds))
  | .staticBlock p b => rfl
  | .empty p => rfl

theorem ClassMember.mapBodiesOf_normal (ms : List ClassMember) :
    ClassMember.mapBodiesOf Block.normal ms = ClassMember.normals ms := by
  cases ms with
  | nil => rfl
  | cons m r => exact congr($(m.mapBodies_normal) :: $(ClassMember.mapBodiesOf_normal r))

end

theorem Declarator.mapBodies_normal (d : Declarator) : d.mapBodies Block.normal = d.normal := by
  match d with
  | .mk p q none => exact congr(Declarator.mk p $(q.mapBodies_normal) none)
  | .mk p q (some e) => exact congr(Declarator.mk p $(q.mapBodies_normal) (some $(e.mapBodies_normal)))

theorem VarDecl.mapBodies_normal (d : VarDecl) : d.mapBodies Block.normal = d.normal := by
  have hitems : ∀ items : List Declarator,
      items.map (Declarator.mapBodies Block.normal) = Declarator.normals items := by
    intro items
    induction items with
    | nil => rfl
    | cons d r ih => exact congr($(d.mapBodies_normal) :: $ih)
  cases d with
  | mk p k d items => exact congr(VarDecl.mk p k d $(hitems items))

theorem LoopHead.mapBodies_normal (head : LoopHead) : head.mapBodies Block.normal = head.normal := by
  cases head with
  | none => rfl
  | varDecl d => exact congr(LoopHead.varDecl $(d.mapBodies_normal))
  | pat q => exact congr(LoopHead.pat $(q.mapBodies_normal))
  | expr e => exact congr(LoopHead.expr $(e.mapBodies_normal))

end StepTrace.Script
