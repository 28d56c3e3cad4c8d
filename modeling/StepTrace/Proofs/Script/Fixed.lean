import StepTrace.Proofs.Script.Slots

/-!
Programs in normal form. A program is its own normal form exactly if each statement that stands alone is one
that its slot takes as it is; so a second pass changes nothing.
-/
namespace StepTrace.Script

/-- Nothing stands alone but what its slot takes. -/
def Part.isNormal : Part → Bool
  | .alone slot s => slot.allows s
  | .list _ | .callable _ => true

/-- None of some parts changes. -/
def AreNormal (parts : List Part) : Prop := ∀ x ∈ parts, x.isNormal = true

namespace AreNormal

variable {x : Part} {a b : List Part}

theorem left (h : AreNormal (a ++ b)) : AreNormal a := fun x hx => h x (List.mem_append_left _ hx)

theorem right (h : AreNormal (a ++ b)) : AreNormal b := fun x hx => h x (List.mem_append_right _ hx)

theorem head (h : AreNormal (x :: a)) : x.isNormal = true := h x List.mem_cons_self

theorem tail (h : AreNormal (x :: a)) : AreNormal a := fun y hy => h y (List.mem_cons_of_mem _ hy)

/-- What a slot takes stays where it is. -/
theorem put_eq {slot : Slot} {s : Stmt} (h : AreNormal (.alone slot s :: a)) (hs : s.normal = s) :
    slot.put s.normal = s := by
  rw [hs]
  exact Slot.put_of_allows h.head

end AreNormal

theorem Part.areNormal_normal (x : Part) : AreNormal x.normal := by
  intro y hy
  cases x with
  | list | callable => exact List.mem_singleton.1 hy ▸ rfl
  | alone slot s =>
    rcases List.mem_cons.1 hy with rfl | hy
    · exact Slot.allows_put slot s.normal
    · unfold Slot.added at hy
      split at hy
      · cases hy
      · split at hy <;> exact List.mem_singleton.1 hy ▸ rfl

/-- A normal form has only parts that do not change. -/
theorem NormalOf.areNormal {a a' : List Part} (h : NormalOf a a') : AreNormal a' := by
  intro y hy
  rw [h] at hy
  obtain ⟨x, -, hx⟩ := List.mem_flatMap.1 hy
  exact Part.areNormal_normal x y hx

/-! ### What does not change -/

mutual

theorem Expr.normal_of_areNormal (e : Expr) (h : AreNormal e.parts) : e.normal = e := by
  cases e with
  | template p chunks parts => exact congr(Expr.template p chunks $(Expr.normals_of_areNormal parts h))
  | tagged p tag chunks parts =>
    exact congr(Expr.tagged p $(Expr.normal_of_areNormal tag h.left) chunks
      $(Expr.normals_of_areNormal parts h.right))
  | array p items => exact congr(Expr.array p $(Expr.normals_of_areNormal items h))
  | object p members => exact congr(Expr.object p $(Property.normals_of_areNormal members h))
  | func name f => exact congr(Expr.func name $(Function.normal_of_areNormal f h))
  | classExpr name c => exact congr(Expr.classExpr name $(Class.normal_of_areNormal c h))
  | arrow p a ps b =>
    exact congr(Expr.arrow p a $(Pat.normals_of_areNormal ps h.left)
      $(ArrowBody.normal_of_areNormal p (Pat.parameterNames ps) b h.right))
  | unary p op e => exact congr(Expr.unary p op $(Expr.normal_of_areNormal e h))
  | update p op pre e => exact congr(Expr.update p op pre $(Expr.normal_of_areNormal e h))
  | binary p op l r =>
    exact congr(Expr.binary p op $(Expr.normal_of_areNormal l h.left)
      $(Expr.normal_of_areNormal r h.right))
  | assign p op q e =>
    exact congr(Expr.assign p op $(Pat.normal_of_areNormal q h.left) $(Expr.normal_of_areNormal e h.right))
  | cond p a b c =>
    exact congr(Expr.cond p $(Expr.normal_of_areNormal a h.left)
      $(Expr.normal_of_areNormal b h.right.left) $(Expr.normal_of_areNormal c h.right.right))
  | member p l e name => exact congr(Expr.member p l $(Expr.normal_of_areNormal e h) name)
  | index p l e k =>
    exact congr(Expr.index p l $(Expr.normal_of_areNormal e h.left) $(Expr.normal_of_areNormal k h.right))
  | call p l e args =>
    exact congr(Expr.call p l $(Expr.normal_of_areNormal e h.left) $(Expr.normals_of_areNormal args h.right))
  | construct p e hasArgs args =>
    exact congr(Expr.construct p $(Expr.normal_of_areNormal e h.left) hasArgs
      $(Expr.normals_of_areNormal args h.right))
  | sequence p items => exact congr(Expr.sequence p $(Expr.normals_of_areNormal items h))
  | paren p e => exact congr(Expr.paren p $(Expr.normal_of_areNormal e h))
  | await p e => exact congr(Expr.await p $(Expr.normal_of_areNormal e h))
  | «yield» p d e =>
    cases e with
    | none => rfl
    | some e => exact congr(Expr.yield p d (some $(Expr.normal_of_areNormal e h)))
  | spread p e => exact congr(Expr.spread p $(Expr.normal_of_areNormal e h))
  | element p name c as_ cs =>
    exact congr(Expr.element p name c $(JsxPart.normals_of_areNormal as_ h.left)
      $(JsxPart.normals_of_areNormal cs h.right))
  | ascribed p how e => exact congr(Expr.ascribed p how $(Expr.normal_of_areNormal e h))
  | this | superRef | importRef | ident | literal | metaProperty | elision => rfl

theorem Expr.normals_of_areNormal (es : List Expr) (h : AreNormal (Expr.partsOf es)) :
    Expr.normals es = es := by
  cases es with
  | nil => rfl
  | cons e r => exact congr($(Expr.normal_of_areNormal e h.left) :: $(Expr.normals_of_areNormal r h.right))

theorem Expr.normal?_of_areNormal (e : Option Expr) (h : AreNormal (Expr.parts? e)) :
    Expr.normal? e = e := by
  cases e with
  | none => rfl
  | some e => exact congr(some $(Expr.normal_of_areNormal e h))

theorem JsxPart.normal_of_areNormal (p : JsxPart) (h : AreNormal p.parts) : p.normal = p := by
  match p with
  | .attribute _ none | .text _ | .container none => rfl
  | .attribute name (some v) => exact congr(JsxPart.attribute name (some $(JsxPart.normal_of_areNormal v h)))
  | .spread e => exact congr(JsxPart.spread $(Expr.normal_of_areNormal e h))
  | .container (some e) => exact congr(JsxPart.container (some $(Expr.normal_of_areNormal e h)))
  | .child e => exact congr(JsxPart.child $(Expr.normal_of_areNormal e h))

theorem JsxPart.normals_of_areNormal (ps : List JsxPart) (h : AreNormal (JsxPart.partsOf ps)) :
    JsxPart.normals ps = ps := by
  cases ps with
  | nil => rfl
  | cons p r =>
    exact congr($(JsxPart.normal_of_areNormal p h.left) :: $(JsxPart.normals_of_areNormal r h.right))

theorem Property.normal_of_areNormal (p : Property) (h : AreNormal p.parts) : p.normal = p := by
  match p with
  | .shorthand _ none => rfl
  | .shorthand name (some e) => exact congr(Property.shorthand name (some $(Expr.normal_of_areNormal e h)))
  | .keyValue k e =>
    exact congr(Property.keyValue $(Key.normal_of_areNormal k h.left) $(Expr.normal_of_areNormal e h.right))
  | .method k f =>
    exact congr(Property.method $(Key.normal_of_areNormal k h.left)
      $(Function.normal_of_areNormal f h.right))
  | .getter p k b =>
    exact congr(Property.getter p $(Key.normal_of_areNormal k h.left)
      $(Block.normal_of_areNormal b h.right.right))
  | .setter p k q b =>
    exact congr(Property.setter p $(Key.normal_of_areNormal k h.left)
      $(Pat.normal_of_areNormal q h.right.left) $(Block.normal_of_areNormal b h.right.right.tail))
  | .spread p e => exact congr(Property.spread p $(Expr.normal_of_areNormal e h))

theorem Property.normals_of_areNormal (ps : List Property) (h : AreNormal (Property.partsOf ps)) :
    Property.normals ps = ps := by
  cases ps with
  | nil => rfl
  | cons p r =>
    exact congr($(Property.normal_of_areNormal p h.left) :: $(Property.normals_of_areNormal r h.right))

theorem Key.normal_of_areNormal (k : Key) (h : AreNormal k.parts) : k.normal = k := by
  cases k with
  | name | literal => rfl
  | computed p e => exact congr(Key.computed p $(Expr.normal_of_areNormal e h))

theorem Pat.normal_of_areNormal (q : Pat) (h : AreNormal q.parts) : q.normal = q := by
  cases q with
  | ident | elision => rfl
  | array p items => exact congr(Pat.array p $(Pat.normals_of_areNormal items h))
  | object p members => exact congr(Pat.object p $(PatProperty.normals_of_areNormal members h))
  | rest p q => exact congr(Pat.rest p $(Pat.normal_of_areNormal q h))
  | withDefault p q e =>
    exact congr(Pat.withDefault p $(Pat.normal_of_areNormal q h.left) $(Expr.normal_of_areNormal e h.right))
  | expr e => exact congr(Pat.expr $(Expr.normal_of_areNormal e h))

theorem Pat.normals_of_areNormal (qs : List Pat) (h : AreNormal (Pat.partsOf qs)) : Pat.normals qs = qs := by
  cases qs with
  | nil => rfl
  | cons q r => exact congr($(Pat.normal_of_areNormal q h.left) :: $(Pat.normals_of_areNormal r h.right))

theorem PatProperty.normal_of_areNormal (p : PatProperty) (h : AreNormal p.parts) : p.normal = p := by
  match p with
  | .keyValue k q =>
    exact congr(PatProperty.keyValue $(Key.normal_of_areNormal k h.left)
      $(Pat.normal_of_areNormal q h.right))
  | .shorthand _ _ none => rfl
  | .shorthand p name (some e) =>
    exact congr(PatProperty.shorthand p name (some $(Expr.normal_of_areNormal e h)))
  | .rest p q => exact congr(PatProperty.rest p $(Pat.normal_of_areNormal q h))

theorem PatProperty.normals_of_areNormal (ps : List PatProperty) (h : AreNormal (PatProperty.partsOf ps)) :
    PatProperty.normals ps = ps := by
  cases ps with
  | nil => rfl
  | cons p r =>
    exact congr($(PatProperty.normal_of_areNormal p h.left) ::
      $(PatProperty.normals_of_areNormal r h.right))

theorem Function.normal_of_areNormal (f : Function) (h : AreNormal f.parts) : f.normal = f := by
  match f with
  | .mk p a g ds ps none =>
    exact congr(Function.mk p a g $(Expr.normals_of_areNormal ds h.left)
      $(Param.normals_of_areNormal ps h.right.left) none)
  | .mk p a g ds ps (some b) =>
    exact congr(Function.mk p a g $(Expr.normals_of_areNormal ds h.left)
      $(Param.normals_of_areNormal ps h.right.left)
      (some $(Block.normal_of_areNormal b h.right.right.tail)))

theorem Param.normal_of_areNormal (p : Param) (h : AreNormal p.parts) : p.normal = p := by
  cases p with
  | mk p ds i q =>
    exact congr(Param.mk p $(Expr.normals_of_areNormal ds h.left) i $(Pat.normal_of_areNormal q h.right))

theorem Param.normals_of_areNormal (ps : List Param) (h : AreNormal (Param.partsOf ps)) :
    Param.normals ps = ps := by
  cases ps with
  | nil => rfl
  | cons p r =>
    exact congr($(Param.normal_of_areNormal p h.left) :: $(Param.normals_of_areNormal r h.right))

theorem ArrowBody.normal_of_areNormal (p : Place) (names : List String) (b : ArrowBody)
    (h : AreNormal (b.parts p names)) : b.normal = b := by
  cases b with
  | block b => exact congr(ArrowBody.block $(Block.normal_of_areNormal b h.tail))
  | expr e => exact congr(ArrowBody.expr $(Expr.normal_of_areNormal e h.tail))

theorem Block.normal_of_areNormal (b : Block) (h : AreNormal b.inner) : b.normal = b := by
  cases b with
  | mk p ss => exact congr(Block.mk p $(Stmt.normals_of_areNormal ss h))

theorem Block.normal_of_areNormal_parts (b : Block) (h : AreNormal b.parts) : b.normal = b := by
  cases b with
  | mk p ss => exact congr(Block.mk p $(Stmt.normals_of_areNormal ss h.tail))

theorem Class.normal_of_areNormal (c : Class) (h : AreNormal c.parts) : c.normal = c := by
  match c with
  | .mk p ds members none =>
    exact congr(Class.mk p $(Expr.normals_of_areNormal ds h.left)
      $(ClassMember.normals_of_areNormal members h.right.left) none)
  | .mk p ds members (some e) =>
    exact congr(Class.mk p $(Expr.normals_of_areNormal ds h.left)
      $(ClassMember.normals_of_areNormal members h.right.left)
      (some $(Expr.normal_of_areNormal e h.right.right)))

theorem ClassMember.normal_of_areNormal (m : ClassMember) (h : AreNormal m.parts) : m.normal = m := by
  match m with
  | .ctor p k ps none => exact congr(ClassMember.ctor p k $(Param.normals_of_areNormal ps h.left) none)
  | .ctor p k ps (some b) =>
    exact congr(ClassMember.ctor p k $(Param.normals_of_areNormal ps h.left)
      (some $(Block.normal_of_areNormal b h.right.tail)))
  | .method p k kind st e f =>
    exact congr(ClassMember.method p $(Key.normal_of_areNormal k h.left) kind st e
      $(Function.normal_of_areNormal f h.right))
  | .property p k st e a none ds =>
    exact congr(ClassMember.property p $(Key.normal_of_areNormal k h.left) st e a none
      $(Expr.normals_of_areNormal ds h.right.right))
  | .property p k st e a (some v) ds =>
    exact congr(ClassMember.property p $(Key.normal_of_areNormal k h.left) st e a
      (some $(Expr.normal_of_areNormal v h.right.left)) $(Expr.normals_of_areNormal ds h.right.right))
  | .staticBlock p b => exact congr(ClassMember.staticBlock p $(Block.normal_of_areNormal_parts b h))
  | .empty _ => rfl

theorem ClassMember.normals_of_areNormal (ms : List ClassMember) (h : AreNormal (ClassMember.partsOf ms)) :
    ClassMember.normals ms = ms := by
  cases ms with
  | nil => rfl
  | cons m r =>
    exact congr($(ClassMember.normal_of_areNormal m h.left) ::
      $(ClassMember.normals_of_areNormal r h.right))

theorem Stmt.normal_of_areNormal (st : Stmt) (h : AreNormal st.parts) : st.normal = st := by
  match st with
  | .block b => exact congr(Stmt.block $(Block.normal_of_areNormal_parts b h))
  | .withObject p e s =>
    exact congr(Stmt.withObject p $(Expr.normal_of_areNormal e h.left)
      $(h.right.put_eq (Stmt.normal_of_areNormal s h.right.tail)))
  | .whileLoop p e s =>
    exact congr(Stmt.whileLoop p $(Expr.normal_of_areNormal e h.left)
      $(h.right.put_eq (Stmt.normal_of_areNormal s h.right.tail)))
  | .doWhileLoop p e s =>
    exact congr(Stmt.doWhileLoop p $(Expr.normal_of_areNormal e h.left)
      $(h.right.put_eq (Stmt.normal_of_areNormal s h.right.tail)))
  | .labeled p l s => exact congr(Stmt.labeled p l $(h.put_eq (Stmt.normal_of_areNormal s h.tail)))
  | .ifElse p e yes none =>
    exact congr(Stmt.ifElse p $(Expr.normal_of_areNormal e h.left)
      $(h.right.left.put_eq (Stmt.normal_of_areNormal yes h.right.left.tail)) none)
  | .ifElse p e yes (some no) =>
    exact congr(Stmt.ifElse p $(Expr.normal_of_areNormal e h.left)
      $(h.right.left.put_eq (Stmt.normal_of_areNormal yes h.right.left.tail))
      (some $(h.right.right.put_eq (Stmt.normal_of_areNormal no h.right.right.tail))))
  | .switchOn p e cases =>
    exact congr(Stmt.switchOn p $(Expr.normal_of_areNormal e h.left)
      $(SwitchCase.normals_of_areNormal cases h.right))
  | .returnStmt p (some e) => exact congr(Stmt.returnStmt p (some $(Expr.normal_of_areNormal e h)))
  | .throwStmt p e => exact congr(Stmt.throwStmt p $(Expr.normal_of_areNormal e h))
  | .expr p e => exact congr(Stmt.expr p $(Expr.normal_of_areNormal e h))
  | .exportDefault p e => exact congr(Stmt.exportDefault p $(Expr.normal_of_areNormal e h))
  | .tryStmt p b none none =>
    exact congr(Stmt.tryStmt p $(Block.normal_of_areNormal_parts b h.left) none none)
  | .tryStmt p b (some c) none =>
    exact congr(Stmt.tryStmt p $(Block.normal_of_areNormal_parts b h.left)
      (some $(Catch.normal_of_areNormal c h.right.left)) none)
  | .tryStmt p b none (some f) =>
    exact congr(Stmt.tryStmt p $(Block.normal_of_areNormal_parts b h.left) none
      (some $(Block.normal_of_areNormal_parts f h.right.right)))
  | .tryStmt p b (some c) (some f) =>
    exact congr(Stmt.tryStmt p $(Block.normal_of_areNormal_parts b h.left)
      (some $(Catch.normal_of_areNormal c h.right.left))
      (some $(Block.normal_of_areNormal_parts f h.right.right)))
  | .forLoop p head test update s =>
    exact congr(Stmt.forLoop p $(LoopHead.normal_of_areNormal head h.left)
      $(Expr.normal?_of_areNormal test h.right.left) $(Expr.normal?_of_areNormal update h.right.right.left)
      $(h.right.right.right.put_eq (Stmt.normal_of_areNormal s h.right.right.right.tail)))
  | .forIn p head e s =>
    exact congr(Stmt.forIn p $(LoopHead.normal_of_areNormal head h.left)
      $(Expr.normal_of_areNormal e h.right.left)
      $(h.right.right.put_eq (Stmt.normal_of_areNormal s h.right.right.tail)))
  | .forOf p a head e s =>
    exact congr(Stmt.forOf p a $(LoopHead.normal_of_areNormal head h.left)
      $(Expr.normal_of_areNormal e h.right.left)
      $(h.right.right.put_eq (Stmt.normal_of_areNormal s h.right.right.tail)))
  | .varDecl d => exact congr(Stmt.varDecl $(VarDecl.normal_of_areNormal d h))
  | .func name f => exact congr(Stmt.func name $(Function.normal_of_areNormal f h))
  | .classDecl name c => exact congr(Stmt.classDecl name $(Class.normal_of_areNormal c h))
  | .exportDecl p d => exact congr(Stmt.exportDecl p $(Stmt.normal_of_areNormal d h))
  | .exportDefaultFunc p name f =>
    exact congr(Stmt.exportDefaultFunc p name $(Function.normal_of_areNormal f h))
  | .exportDefaultClass p name c =>
    exact congr(Stmt.exportDefaultClass p name $(Class.normal_of_areNormal c h))
  | .returnStmt _ none | .empty _ | .debugger _ | .breakTo .. | .continueTo .. | .importNames ..
  | .exportNames .. | .exportAll .. | .typed _ => rfl

theorem Stmt.normals_of_areNormal (ss : List Stmt) (h : AreNormal (Stmt.partsOf ss)) :
    Stmt.normals ss = ss := by
  cases ss with
  | nil => rfl
  | cons s r => exact congr($(Stmt.normal_of_areNormal s h.left) :: $(Stmt.normals_of_areNormal r h.right))

theorem VarDecl.normal_of_areNormal (d : VarDecl) (h : AreNormal d.parts) : d.normal = d := by
  cases d with
  | mk p kind b items => exact congr(VarDecl.mk p kind b $(Declarator.normals_of_areNormal items h))

theorem Declarator.normal_of_areNormal (d : Declarator) (h : AreNormal d.parts) : d.normal = d := by
  match d with
  | .mk p q none => exact congr(Declarator.mk p $(Pat.normal_of_areNormal q h.left) none)
  | .mk p q (some e) =>
    exact congr(Declarator.mk p $(Pat.normal_of_areNormal q h.left)
      (some $(Expr.normal_of_areNormal e h.right)))

theorem Declarator.normals_of_areNormal (ds : List Declarator) (h : AreNormal (Declarator.partsOf ds)) :
    Declarator.normals ds = ds := by
  cases ds with
  | nil => rfl
  | cons d r =>
    exact congr($(Declarator.normal_of_areNormal d h.left) :: $(Declarator.normals_of_areNormal r h.right))

theorem SwitchCase.normal_of_areNormal (c : SwitchCase) (h : AreNormal c.parts) : c.normal = c := by
  match c with
  | .mk p none ss => exact congr(SwitchCase.mk p none $(Stmt.normals_of_areNormal ss h.right.tail))
  | .mk p (some e) ss =>
    exact congr(SwitchCase.mk p (some $(Expr.normal_of_areNormal e h.left))
      $(Stmt.normals_of_areNormal ss h.right.tail))

theorem SwitchCase.normals_of_areNormal (cs : List SwitchCase) (h : AreNormal (SwitchCase.partsOf cs)) :
    SwitchCase.normals cs = cs := by
  cases cs with
  | nil => rfl
  | cons c r =>
    exact congr($(SwitchCase.normal_of_areNormal c h.left) :: $(SwitchCase.normals_of_areNormal r h.right))

theorem Catch.normal_of_areNormal (c : Catch) (h : AreNormal c.parts) : c.normal = c := by
  match c with
  | .mk p none b => exact congr(Catch.mk p none $(Block.normal_of_areNormal_parts b h.right))
  | .mk p (some q) b =>
    exact congr(Catch.mk p (some $(Pat.normal_of_areNormal q h.left))
      $(Block.normal_of_areNormal_parts b h.right))

theorem LoopHead.normal_of_areNormal (head : LoopHead) (h : AreNormal head.parts) : head.normal = head := by
  cases head with
  | none => rfl
  | varDecl d => exact congr(LoopHead.varDecl $(VarDecl.normal_of_areNormal d h))
  | pat q => exact congr(LoopHead.pat $(Pat.normal_of_areNormal q h))
  | expr e => exact congr(LoopHead.expr $(Expr.normal_of_areNormal e h))

end

/-! ### Whole programs -/

theorem Program.areNormal_normal (p : Program) : AreNormal p.normal.parts := p.parts_normal.areNormal

theorem Program.normal_eq_iff (p : Program) : p.normal = p ↔ AreNormal p.parts := by
  constructor
  · intro h
    -- The parts of `p` are then those of a normal form.
    exact h ▸ p.areNormal_normal
  · intro h
    exact congr({ p with body := $(Stmt.normals_of_areNormal p.body h) })

/-- In a normal form the body of a loop, of `with` and of a condition is a block, a second branch is a block or
another condition, and a label stands before a block, a label, a loop or a declaration, at every depth; and it
is its own normal form. -/
theorem Program.normal_normal (p : Program) :
    p.normal.parts.all Part.isNormal = true ∧ p.normal.normal = p.normal :=
  ⟨List.all_eq_true.2 p.areNormal_normal, p.normal.normal_eq_iff.2 p.areNormal_normal⟩

end StepTrace.Script
