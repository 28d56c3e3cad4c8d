import StepTrace.Script.Typed.Surroundings

/-!
A typed program without its types. What only describes a type is dropped; an enumeration and a namespace
become functions that fill an object, a parameter that declares a property assigns it when the object is
made, and a constant member of an enumeration that is in scope is replaced by its value.
-/
namespace StepTrace.Script

/-! ### Objects that are filled -/

/-- `a || target = {}`, the object that is filled. -/
def Expr.orObject (e : Expr) : Expr :=
  .binary none .logicalOr e (.assign none .set (.expr e) (.object none []))

/-- The call of a function whose parameter is the object that its body fills. -/
def Expr.filling (name : String) (arg : Expr) (body : List Stmt) : Expr :=
  .call none .plain
    (.func none (.mk none false false [] [.mk none [] false (.ident ⟨none, name⟩)]
      (some (.mk none body))))
    [arg]

/-- The object of a name; one that a namespace gives out is a member of it too. -/
def Surroundings.filledObject (w : Surroundings) (isGiven : Bool) (name : String) : Expr :=
  match w.space, isGiven with
  | some space, true => .assign none .set (.ident ⟨none, name⟩) (Expr.property space name).orObject
  | _, _ => (Expr.ofName name).orObject

/-- The variable of an object that is filled. -/
def Surroundings.filledVar (w : Surroundings) (isGiven : Bool) (name : String) : Stmt :=
  let d : VarDecl := .mk none (if w.isTop then .var else .let) false [.mk none (.ident ⟨none, name⟩) none]
  if isGiven && w.space.isNone then .exportDecl none (.varDecl d) else .varDecl d

/-- The body of a namespace with a path: each name is filled inside the one before. -/
def spaceBody (space : String) : List Ident → List Stmt → List Stmt
  | [], stmts => stmts
  | n :: r, stmts =>
    [.expr none (Expr.filling n.text (Expr.property space n.text).orObject (spaceBody n.text r stmts))]

/-- The assignment of a member of an enumeration; one that is no text is found by its value too. -/
def Expr.enumAssign (name member : String) (isText : Bool) (value : Expr) : Expr :=
  let key : Expr := .literal none (.string member "")
  let inner := Expr.assignTo (.index none .plain (.ofName name) key) value
  if isText then inner else Expr.assignTo (.index none .plain (.ofName name) inner) key

/-- The names after which an object that is filled needs no variable. -/
def Stmt.settledNames : Stmt → List String
  | .func n f => if f.body.isSome then [n.text] else []
  | .classDecl n _ => [n.text]
  | .exportDefaultFunc _ n f => if f.body.isSome then (n.map Ident.text).toList else []
  | .exportDefaultClass _ n _ => (n.map Ident.text).toList
  | .typed (.enumeration _ false _ n _) => [n.text]
  | .typed (.namespace _ false path stmts) =>
    if Stmt.anyLeft stmts then (path.head?.map Ident.text).toList else []
  | .exportDecl _ d => d.settledNames
  | _ => []

/-- What is left of the body of a statement as one statement. -/
def Stmt.single : List Stmt → Stmt
  | [] => .empty none
  | [s] => s
  | ss => .block (.mk none ss)

/-! ### Properties that parameters declare -/

/-- The names of the properties that parameters declare. -/
def Param.propertyNames (ps : List Param) : List Ident :=
  ps.filterMap fun
    | .mk _ _ true (.ident n) | .mk _ _ true (.withDefault _ (.ident n) _) => some n
    | _ => none

/-- The names of the properties that the constructor of a class declares. -/
def ClassMember.propertyNames (members : List ClassMember) : List Ident :=
  members.flatMap fun
    | .ctor _ _ ps (some _) => Param.propertyNames ps
    | _ => []

/-- The names along an expression, from which a variable for its value gets its name. -/
def Expr.namesAlong : Expr → String
  | .ident n => n.text
  | .this _ => "this"
  | .member _ _ obj n => obj.namesAlong ++ "_" ++ n.text
  | .index _ _ obj k => obj.namesAlong ++ "_" ++ k.namesAlong
  | .call _ _ f _ => f.namesAlong
  | _ => ""

/-- The name of the variable that keeps the value of a computed key. -/
def Expr.keyName (e : Expr) : String :=
  let names := e.namesAlong
  if names.isEmpty then "_key" else "_" ++ names

mutual

/-- An expression that has the same value wherever it is computed. -/
def Expr.isLiteral : Expr → Bool
  | .literal _ (.regex ..) => false
  | .literal .. | .template _ _ [] | .elision => true
  | .paren _ e => e.isLiteral
  | .array _ items => Expr.areLiteral items
  | _ => false

def Expr.areLiteral : List Expr → Bool
  | [] => true
  | e :: r => e.isLiteral && Expr.areLiteral r

end

/-- The name of the variable for a key, if the key has to be computed once before the class. -/
def Expr.keptName? (key : Expr) : Option String := if key.isLiteral then none else some key.keyName

/-- The variables for keys, before the statement that has the classes. -/
def Stmt.keeping (keys : List Declarator) : List Stmt :=
  if keys.isEmpty then [] else [.varDecl (.mk none .let false keys)]

/-- The property of an object under construction. -/
def Key.ofThis : Key → Expr
  | .name n => .member none .plain (.this none) n
  | .literal p v => .index none .plain (.this none) (.literal p v)
  | .computed _ e => .index none .plain (.this none) e

/-- The assignment of a property by its parameter. -/
def Expr.propertyAssign (n : Ident) : Expr := Expr.assignTo (Key.ofThis (.name n)) (.ident n)

/-- A property without a value. -/
def ClassMember.bare (n : Ident) : ClassMember := .property none (.name n) false false false none []

mutual

/-- A pattern in which each member stands with its key, so that a member of a namespace can be assigned. -/
def Pat.spelled (w : Surroundings) : Pat → Pat
  | .array p items => .array p (Pat.spelledOf w items)
  | .object p members => .object p (PatProperty.spelledOf w members)
  | .rest p q => .rest p (q.spelled w)
  | .withDefault p q e => .withDefault p (q.spelled w) e
  | q => q

def Pat.spelledOf (w : Surroundings) : List Pat → List Pat
  | [] => []
  | q :: r => q.spelled w :: Pat.spelledOf w r

def PatProperty.spelled (w : Surroundings) : PatProperty → PatProperty
  | .keyValue k q => .keyValue k (q.spelled w)
  | .shorthand _ n none => .keyValue (.name n) (w.pattern n)
  | .shorthand p n (some e) => .keyValue (.name n) (.withDefault p (w.pattern n) e)
  | .rest p q => .rest p (q.spelled w)

def PatProperty.spelledOf (w : Surroundings) : List PatProperty → List PatProperty
  | [] => []
  | m :: r => m.spelled w :: PatProperty.spelledOf w r

end

def Param.isThis : Param → Bool
  | .mk _ _ _ (.ident n) => n.text == "this"
  | _ => false

def Pat.isThis : Pat → Bool
  | .ident n => n.text == "this"
  | _ => false

/-! ### Lowering -/

/-- The assignments of the members of an enumeration; those of constants are left out if `isInlined`. -/
def EnumMember.assigns (name : String) (isInlined : Bool) : List EnumMember → List EnumValue → List Stmt
  | .mk p _ n _ :: r, v :: vs =>
    let rest := EnumMember.assigns name isInlined r vs
    if isInlined && v.isConstant then rest
    else .expr p (Expr.enumAssign name n v.isText v.toExpr) :: rest
  | _, _ => []

mutual

def Expr.lower (w : Surroundings) : Expr → Expr
  | .ident n => w.reference n
  | .template p chunks parts => .template p chunks (Expr.lowers w.within parts)
  | .tagged p tag chunks parts => .tagged p (tag.lower w.within) chunks (Expr.lowers w.within parts)
  | .array p items => .array p (Expr.lowers w.within items)
  | .object p members => .object p (Property.lowers w.within members)
  | .func name f => .func name (f.lower (w.within.declare (name.map Ident.text).toList))
  | .classExpr name c => .classExpr name (c.lower (w.within.declare (name.map Ident.text).toList))
  | .arrow p a params body =>
    let w := w.within.declare (Pat.boundNamesOf params ++ body.bodyNames)
    .arrow p a (Pat.lowersParams w params) (body.lower w)
  | .unary p op e => .unary p op (e.lower w.within)
  | .update p op pre e => .update p op pre (e.lower w.asTarget)
  | .binary p op l r => .binary p op (l.lower w.within) (r.lower w.within)
  | .assign p op q e => .assign p op (q.lower w.asTarget) (e.lower w.asValue)
  | .cond p a b c => .cond p (a.lower w.within) (b.lower w.within) (c.lower w.within)
  | .member p l obj n =>
    (w.constant? l obj (some n.text)).getD (.member p l (obj.lower w.asValue) n)
  | .index p l obj k =>
    (w.constant? l obj k.memberName?).getD (.index p l (obj.lower w.asValue) (k.lower w.asValue))
  | .call p l (.superRef q) args => w.afterCall (.call p l (.superRef q) (Expr.lowers w.within args))
  | .call p l f args => .call p l (f.lower w.within) (Expr.lowers w.within args)
  | .construct p f h args => .construct p (f.lower w.within) h (Expr.lowers w.within args)
  | .sequence p items => .sequence p (Expr.lowersInSequence w items)
  | .paren p e => .paren p (e.lower w)
  | .await p e => .await p (e.lower w.within)
  | .yield p d e => .yield p d (Expr.lower? w.within e)
  | .spread p e => .spread p (e.lower w.within)
  | .element p n c as_ cs =>
    .element p (n.map w.jsxName) c (JsxPart.lowers w.within as_) (JsxPart.lowers w.within cs)
  | .ascribed _ _ e => e.lower w
  | .this p => .this p
  | .superRef p => .superRef p
  | .importRef p => .importRef p
  | .literal p v => .literal p v
  | .metaProperty p m => .metaProperty p m
  | .elision => .elision

def Expr.lower? (w : Surroundings) : Option Expr → Option Expr
  | none => none
  | some e => some (e.lower w)

def Expr.lowers (w : Surroundings) : List Expr → List Expr
  | [] => []
  | e :: r => e.lower w :: Expr.lowers w r

/-- Only the last value of a sequence may be needed. -/
def Expr.lowersInSequence (w : Surroundings) : List Expr → List Expr
  | [] => []
  | e :: r => e.lower (if r.isEmpty then w else w.discarding) :: Expr.lowersInSequence w r

def JsxPart.lower (w : Surroundings) : JsxPart → JsxPart
  | .attribute n none => .attribute n none
  | .attribute n (some v) => .attribute n (some (v.lower w))
  | .spread e => .spread (e.lower w)
  | .text s => .text s
  | .container e => .container (Expr.lower? w e)
  | .child e => .child (e.lower w)

def JsxPart.lowers (w : Surroundings) : List JsxPart → List JsxPart
  | [] => []
  | p :: r => p.lower w :: JsxPart.lowers w r

def Property.lower (w : Surroundings) : Property → Property
  | .shorthand n e => w.shorthand n (Expr.lower? w e)
  | .keyValue k e => .keyValue (k.lower w) (e.lower w)
  | .method k f => .method (k.lower w) (f.lower w)
  | .getter p k b => .getter p (k.lower w.aside) (b.lowerBody w.aside [])
  | .setter p k q b =>
    .setter p (k.lower w.aside) (q.lower (w.aside.declare (q.boundNames ++ Stmt.bodyNamesOf b.stmts)))
      (b.lowerBody w.aside q.boundNames)
  | .spread p e => .spread p (e.lower w)

def Property.lowers (w : Surroundings) : List Property → List Property
  | [] => []
  | p :: r => p.lower w :: Property.lowers w r

def Key.lower (w : Surroundings) : Key → Key
  | .computed p e => .computed p (e.lower w)
  | k => k

/-- The key of a property that its constructor assigns. -/
def Key.lowerKept (w : Surroundings) : Key → Key
  | .computed p e =>
    let e := e.lower w
    .computed p ((e.keptName?.map Expr.ofName).getD e)
  | k => k

def Pat.lower (w : Surroundings) : Pat → Pat
  | .ident n => w.pattern n
  | .elision => .elision
  | .array p items => .array p (Pat.lowers w items)
  | .object p members => .object p (PatProperty.lowers w members)
  | .rest p q => .rest p (q.lower w)
  | .withDefault p q e => .withDefault p (q.lower w) (e.lower w.asValue)
  | .expr e => .expr (e.lower w.asTarget)

def Pat.lowers (w : Surroundings) : List Pat → List Pat
  | [] => []
  | q :: r => q.lower w :: Pat.lowers w r

/-- Parameters without the one that only tells the type of `this`. -/
def Pat.lowersParams (w : Surroundings) : List Pat → List Pat
  | [] => []
  | q :: r => if q.isThis then Pat.lowers w r else q.lower w :: Pat.lowers w r

def Pat.lower? (w : Surroundings) : Option Pat → Option Pat
  | none => none
  | some q => some (q.lower w)

def PatProperty.lower (w : Surroundings) : PatProperty → PatProperty
  | .keyValue k q => .keyValue (k.lower w.asValue) (q.lower w)
  | .shorthand p n e => .shorthand p n (Expr.lower? w.asValue e)
  | .rest p q => .rest p (q.lower w)

def PatProperty.lowers (w : Surroundings) : List PatProperty → List PatProperty
  | [] => []
  | p :: r => p.lower w :: PatProperty.lowers w r

def Function.lower (w : Surroundings) : Function → Function
  | .mk p a g ds ps b =>
    let names := Param.boundNamesOf ps
    .mk p a g (Expr.lowers w ds)
      (Param.lowersSigned (w.aside.declare (names ++ Block.bodyNames? b)) ps)
      (Block.lowerBody? w.aside names b)

def Param.lower (w : Surroundings) : Param → Param
  | .mk p ds _ q => .mk p (Expr.lowers w ds) false (q.lower w)

def Param.lowers (w : Surroundings) : List Param → List Param
  | [] => []
  | p :: r => p.lower w :: Param.lowers w r

/-- Parameters without the one that only tells the type of `this`. -/
def Param.lowersSigned (w : Surroundings) : List Param → List Param
  | [] => []
  | p :: r => if p.isThis then Param.lowers w r else p.lower w :: Param.lowers w r

def ArrowBody.lower (w : Surroundings) : ArrowBody → ArrowBody
  | .block b => .block (b.lowerBody w [])
  | .expr e => .expr (e.lower w)

/-- The body of a function with names of parameters. -/
def Block.lowerBody (w : Surroundings) (names : List String) : Block → Block
  | .mk p stmts => .mk p (Stmt.lowers (w.inList (names ++ Stmt.varNamesOf stmts) stmts) [] stmts)

def Block.lowerBody? (w : Surroundings) (names : List String) : Option Block → Option Block
  | none => none
  | some b => some (b.lowerBody w names)

def Block.lower (w : Surroundings) : Block → Block
  | .mk p stmts => .mk p (Stmt.lowers (w.inList [] stmts) [] stmts)

def Block.lower? (w : Surroundings) : Option Block → Option Block
  | none => none
  | some b => some (b.lower w)

/-- A class. If parameters declare properties, these stand first, and what initializes the others moves
into the constructor. -/
def Class.lower (w : Surroundings) : Class → Class
  | .mk p ds members parent =>
    let names := ClassMember.propertyNames members
    let v := w.aside
    let moved :=
      if names.isEmpty then none
      else some (names.map Expr.propertyAssign ++ ClassMember.initializers v members)
    .mk p (Expr.lowers v ds) (names.map ClassMember.bare ++ ClassMember.lowers v moved members)
      (Expr.lower? w parent)

/-- The keys that a class needs before it, since its constructor assigns its properties. -/
def Class.keptKeys (w : Surroundings) : Class → List Declarator
  | .mk _ _ members parent =>
    (if (ClassMember.propertyNames members).isEmpty then [] else ClassMember.keptKeysOf w members) ++
      Expr.keptKeys? w parent

def ClassMember.keptKeysOf (w : Surroundings) : List ClassMember → List Declarator
  | [] => []
  | .property _ (.computed _ e) false false false (some _) _ :: r =>
    let e := e.lower w.aside
    (e.keptName?.map fun n => .mk none (.ident ⟨none, n⟩) (some e)).toList ++ ClassMember.keptKeysOf w r
  | _ :: r => ClassMember.keptKeysOf w r

/-- The keys that the classes in an expression need before its statement. -/
def Expr.keptKeys (w : Surroundings) : Expr → List Declarator
  | .classExpr _ c => c.keptKeys w
  | .paren _ e | .ascribed _ _ e | .unary _ _ e | .await _ e | .spread _ e | .assign _ _ _ e
  | .member _ _ e _ => e.keptKeys w
  | .binary _ _ l r | .index _ _ l r => l.keptKeys w ++ r.keptKeys w
  | .cond _ a b c => a.keptKeys w ++ b.keptKeys w ++ c.keptKeys w
  | .call _ _ f args | .construct _ f _ args => f.keptKeys w ++ Expr.keptKeysOf w args
  | .array _ items | .sequence _ items => Expr.keptKeysOf w items
  | _ => []

def Expr.keptKeys? (w : Surroundings) : Option Expr → List Declarator
  | none => []
  | some e => e.keptKeys w

def Expr.keptKeysOf (w : Surroundings) : List Expr → List Declarator
  | [] => []
  | e :: r => e.keptKeys w ++ Expr.keptKeysOf w r

/-- The keys that the classes in a statement need before it. -/
def Stmt.keptKeys (w : Surroundings) : Stmt → List Declarator
  | .classDecl _ c | .exportDefaultClass _ _ c => c.keptKeys w
  | .exportDecl _ d => d.keptKeys w
  | .expr _ e | .exportDefault _ e | .throwStmt _ e => e.keptKeys w
  | .returnStmt _ e => Expr.keptKeys? w e
  | .varDecl d => d.keptKeys w
  | _ => []

def VarDecl.keptKeys (w : Surroundings) : VarDecl → List Declarator
  | .mk _ _ isDeclare items => if isDeclare then [] else Declarator.keptKeysOf w items

def Declarator.keptKeysOf (w : Surroundings) : List Declarator → List Declarator
  | [] => []
  | .mk _ _ e :: r => Expr.keptKeys? w e ++ Declarator.keptKeysOf w r

/-- Assignments in the place of the initializers of a class. -/
def ClassMember.initializers (w : Surroundings) : List ClassMember → List Expr
  | [] => []
  | .property _ k false false false (some e) _ :: r =>
    Expr.assignTo (Key.ofThis (k.lowerKept w)) (e.lower w) :: ClassMember.initializers w r
  | _ :: r => ClassMember.initializers w r

/-- What is left of a member; the constructor takes up what `moved` holds. -/
def ClassMember.lower (w : Surroundings) (moved : Option (List Expr)) : ClassMember → Option ClassMember
  | .ctor _ _ _ none => none
  | .ctor p k ps (some b) =>
    let names := Param.boundNamesOf ps
    let params := Param.lowers (w.declare (names ++ Stmt.bodyNamesOf b.stmts)) ps
    let new := moved.getD []
    if new.isEmpty || (Stmt.usesOf b.stmts).contains .parentCall then
      some (.ctor p k params (some (b.lowerBody { w with afterSuper := new } names)))
    else
      let body := b.lowerBody w names
      some (.ctor p k params (some (.mk body.place (new.map (Stmt.expr none) ++ body.stmts))))
  | .method p k kind s e f =>
    if e || f.body.isNone then none else some (.method p (k.lower w) kind s false (f.lower w))
  | .property p k s e a v ds =>
    if e then none
    else
      let isMoved := moved.isSome && !s && !a && v.isSome
      let key := if isMoved then k.lowerKept w else k.lower w
      some (.property p key s false a (if isMoved then none else Expr.lower? w v) (Expr.lowers w ds))
  | .staticBlock p b => some (.staticBlock p (b.lowerBody w []))
  | .empty p => some (.empty p)

def ClassMember.lowers (w : Surroundings) (moved : Option (List Expr)) :
    List ClassMember → List ClassMember
  | [] => []
  | m :: r => (m.lower w moved).toList ++ ClassMember.lowers w moved r

/-- What is left of a statement. `isFirst` if no declaration of the list before it has its name. -/
def Stmt.lower (w : Surroundings) (isFirst : Bool) : Stmt → List Stmt
  | .block b => [.block (b.lower w)]
  | .empty p => if w.dropsEmpty then [] else [.empty p]
  | .withObject p e s => [.withObject p (e.lower w) (Stmt.single (s.lower (w.inBody s) true))]
  | .returnStmt p e => [.returnStmt p (Expr.lower? w e)]
  | .labeled p l s => [.labeled p l (Stmt.single (s.lower (w.inBody s) true))]
  | .ifElse p e yes no =>
    let v := { w with meanings := w.meanings.after yes }
    [.ifElse p (e.lower w) (Stmt.single (yes.lower (w.inBody yes) true)) (Stmt.lowerBody? v no)]
  | .switchOn p e cases =>
    let inner := w.inList (SwitchCase.declaredNamesOf cases) []
    [.switchOn p (e.lower w) (SwitchCase.lowers inner cases)]
  | .throwStmt p e => [.throwStmt p (e.lower w)]
  | .tryStmt p b c f => [.tryStmt p (b.lower w) (Catch.lower? w c) (Block.lower? w f)]
  | .whileLoop p e s => [.whileLoop p (e.lower w) (Stmt.single (s.lower (w.inBody s) true))]
  | .doWhileLoop p e s => [.doWhileLoop p (e.lower w) (Stmt.single (s.lower (w.inBody s) true))]
  | .forLoop p h test update s =>
    let w := w.inList h.declaredNames []
    [.forLoop p (h.lower w) (Expr.lower? w test) (Expr.lower? w update)
      (Stmt.single (s.lower (w.inBody s) true))]
  | .forIn p h e s =>
    let w := w.inList h.declaredNames []
    [.forIn p (h.lower w) (e.lower w) (Stmt.single (s.lower (w.inBody s) true))]
  | .forOf p a h e s =>
    let w := w.inList h.declaredNames []
    [.forOf p a (h.lower w) (e.lower w) (Stmt.single (s.lower (w.inBody s) true))]
  | .varDecl d => if d.isDeclare then [] else [.varDecl (d.lower w)]
  | .func n f => if f.body.isNone then [] else [.func n (f.lower w)]
  | .classDecl n c => [.classDecl n (c.lower w)]
  | .expr p e => [.expr p (e.lower w.discarding)]
  | .exportDecl p d => d.lowerGiven w isFirst p
  | .exportDefault p e => [.exportDefault p (e.lower w)]
  | .exportDefaultFunc p n f => if f.body.isNone then [] else [.exportDefaultFunc p n (f.lower w)]
  | .exportDefaultClass p n c => [.exportDefaultClass p n (c.lower w)]
  | .typed d => d.lower w isFirst false
  | .debugger p => [.debugger p]
  | .breakTo p l => [.breakTo p l]
  | .continueTo p l => [.continueTo p l]
  | .importNames p t ns m => [.importNames p t ns m]
  | .exportNames p t ns m => [.exportNames p t ns m]
  | .exportAll p t m => [.exportAll p t m]

/-- What is left of a declaration that is exported. A namespace gives out variables as its members, and
assigns functions and classes to members. -/
def Stmt.lowerGiven (w : Surroundings) (isFirst : Bool) (p : Place) : Stmt → List Stmt
  | .typed d => d.lower w isFirst true
  | .varDecl d =>
    if d.isDeclare then []
    else if w.space.isSome then
      match d.assigns w with
      | [] => []
      | [e] => [.expr p e]
      | es => [.expr p (.sequence none es)]
    else [.exportDecl p (.varDecl (d.lower w))]
  | .func n f =>
    if f.body.isNone then []
    else
      match w.space with
      | some space =>
        [.func n (f.lower w), .expr p (Expr.assignTo (.property space n.text) (.ident n))]
      | none => [.exportDecl p (.func n (f.lower w))]
  | .classDecl n c =>
    match w.space with
    | some space =>
      [.classDecl n (c.lower w), .expr p (Expr.assignTo (.property space n.text) (.ident n))]
    | none => [.exportDecl p (.classDecl n (c.lower w))]
  | _ => []

def Stmt.lowerBody? (w : Surroundings) : Option Stmt → Option Stmt
  | none => none
  | some s => some (Stmt.single (s.lower (w.inBody s) true))

/-- What is left of a list of statements, of which `seen` are the names of functions, classes and filled
objects before. -/
def Stmt.lowers (w : Surroundings) (seen : List String) : List Stmt → List Stmt
  | [] => []
  | s :: r =>
    let names := s.settledNames
    Stmt.keeping (s.keptKeys w) ++ s.lower w (!names.any seen.contains) ++
      Stmt.lowers (w.past s (s.memberValues w)) (names ++ seen) r

/-- The values of the members of an enumeration, as the program is to have them. -/
def Stmt.memberValues (w : Surroundings) : Stmt → EnumValues
  | .typed (.enumeration _ _ _ n members) | .exportDecl _ (.typed (.enumeration _ _ _ n members)) =>
    EnumMember.lowers w (w.passed.scope n.text members) (.number 0) members
  | _ => []

def TypedDecl.lower (w : Surroundings) (isFirst isGiven : Bool) : TypedDecl → List Stmt
  | .enumeration p isDeclare isConst n members =>
    if isDeclare then []
    else
      let isInlined := isConst && !isGiven && !(w.isTop && w.listed.contains n.text)
      let values := EnumMember.lowers w (w.passed.scope n.text members) (.number 0) members
      let stmts := EnumMember.assigns n.text isInlined members (values.map Prod.snd)
      (if isFirst then [w.filledVar isGiven n.text] else []) ++
        if isInlined && stmts.isEmpty then []
        else [.expr p (Expr.filling n.text (w.filledObject isGiven n.text) stmts)]
  | .namespace p isDeclare path stmts =>
    if isDeclare || !Stmt.anyLeft stmts then []
    else
      match path with
      | [] => []
      | n :: r =>
        let body := Stmt.lowers (w.inSpace (n :: r) stmts) [] stmts
        (if isFirst then [w.filledVar isGiven n.text] else []) ++
          [.expr p (Expr.filling n.text (w.filledObject isGiven n.text) (spaceBody n.text r body))]
  | .importEquals p isExport isType n path =>
    let value := w.path path
    if isType then []
    else if isExport then
      (w.space.map fun space => Stmt.expr p (Expr.assignTo (.property space n.text) value)).toList
    else [Stmt.constant p n value]
  | .importRequire .. | .exportAssign .. | .ambient .. | .ambientModule .. | .erased .. => []

/-- Members with their values in order, of which the first is `next` if it has no initializer. -/
def EnumMember.lowers (w : Surroundings) (s : EnumScope) (next : EnumValue) : List EnumMember → EnumValues
  | [] => []
  | .mk _ _ n init :: r =>
    let v := s.value init (Expr.lower? (w.inMembers s) init) next
    (n, v) :: EnumMember.lowers w (s.know n v) v.next r

def VarDecl.lower (w : Surroundings) : VarDecl → VarDecl
  | .mk p k d items => .mk p k d (Declarator.lowers w items)

def Declarator.lowers (w : Surroundings) : List Declarator → List Declarator
  | [] => []
  | .mk p q e :: r => .mk p (q.lower w.asTarget) (Expr.lower? w e) :: Declarator.lowers w r

/-- The values of variables as assignments. -/
def VarDecl.assigns (w : Surroundings) : VarDecl → List Expr
  | .mk _ _ _ items => Declarator.assigns w items

def Declarator.assigns (w : Surroundings) : List Declarator → List Expr
  | [] => []
  | .mk _ _ none :: r => Declarator.assigns w r
  | .mk p q (some e) :: r =>
    .assign p .set ((q.lower w.asTarget).spelled w) (e.lower w) :: Declarator.assigns w r

def SwitchCase.lowers (w : Surroundings) : List SwitchCase → List SwitchCase
  | [] => []
  | .mk p e stmts :: r =>
    let v := w.among stmts
    .mk p (Expr.lower? w e) (Stmt.lowers v [] stmts) ::
      SwitchCase.lowers { w with meanings := v.meanings } r

def Catch.lower? (w : Surroundings) : Option Catch → Option Catch
  | none => none
  | some (.mk p q b) =>
    let w := w.declare ((q.map Pat.boundNames).getD [])
    some (.mk p (Pat.lower? w.asTarget q) (b.lower w))

def LoopHead.lower (w : Surroundings) : LoopHead → LoopHead
  | .none => .none
  | .varDecl d => .varDecl (d.lower w)
  | .pat q => .pat (q.lower w.asTarget)
  | .expr e => .expr (e.lower w)

end

/-- The names that a module gives out by lists and by default. -/
def Stmt.listedNames (stmts : List Stmt) : List String :=
  stmts.flatMap fun
    | .exportNames _ _ names none => names.filterMap ExportName.given?
    | .exportDefault _ (.ident n) => [n.text]
    | _ => []

/-- A program without types. A module stays one, if it was one for its imports and exports. -/
def Program.withoutTypes (p : Program) : Program :=
  let body := p.body.map fun s => if s.isOwnNamespace then s.withoutUnread else s
  let body := if p.isModule then Stmt.exchangedOf body else body
  let w : Surroundings := {}
  let w := w.inList (Stmt.varNamesOf body) body
  let w := { w with
    isTop := true, listed := Stmt.listedNames body, dropsEmpty := p.isModule || w.dropsEmpty }
  let left := Stmt.lowers w [] body
  let lost := p.body.any Stmt.isExchange && !left.any Stmt.isExchange
  { p with body := if lost then left ++ [.exportNames none false [] none] else left }

end StepTrace.Script
