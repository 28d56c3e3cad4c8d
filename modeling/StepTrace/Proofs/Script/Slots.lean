import Mathlib.Data.List.Basic
import StepTrace.Proofs.Script.Parts
import StepTrace.Script.Instrument
import StepTrace.Script.NormalForm

/-!
What the normal form makes of the parts of a program. A statement that stands alone is put in a block unless its
slot takes it as it is; the block is one list more. All other parts stay, in their order. So after it hardly a
statement that is followed by a probe stands alone: what is left are variables that a label declares.
-/
namespace StepTrace.Script

/-! ### Slots -/

namespace Slot

/-- What stands in a slot in the normal form. -/
def allows : Slot → Stmt → Bool
  | _, .block _ => true
  | .branch, .ifElse .. => true
  | .label, .labeled .. | .label, .forLoop .. | .label, .forIn .. | .label, .forOf ..
  | .label, .whileLoop .. | .label, .doWhileLoop .. => true
  | .label, .varDecl _ | .label, .func .. | .label, .classDecl .. => true
  | _, _ => false

/-- What a statement becomes in a slot. -/
def put : Slot → Stmt → Stmt
  | .body, s => s.asBlock
  | .branch, s => s.asBranch
  | .label, s => s.asLabelBody

/-- The list of the block that a statement is put in. -/
def added (slot : Slot) (s : Stmt) : List Part :=
  if slot.allows s then []
  else match s with
    | .empty _ => [.list []]
    | s => [.list [s]]

theorem allows_put (slot : Slot) (s : Stmt) : slot.allows (slot.put s) = true := by
  cases slot <;> cases s <;> rfl

theorem put_of_allows {slot : Slot} {s : Stmt} (h : slot.allows s = true) : slot.put s = s := by
  cases slot with
  | body =>
    cases s with
    | block => rfl
    | _ => cases h
  | branch =>
    cases s with
    | block | ifElse => rfl
    | _ => cases h
  | label =>
    cases s with
    | block | labeled | forLoop | forIn | forOf | whileLoop | doWhileLoop | varDecl | func | classDecl => rfl
    | _ => cases h

theorem parts_asBlock (s : Stmt) : s.asBlock.parts = added .body s ++ s.parts := by
  cases s with
  | block | empty => rfl
  | _ => exact congr(Part.list _ :: $(List.append_nil _))

/-- A block that is made is one list more. -/
theorem parts_put (slot : Slot) (s : Stmt) : (slot.put s).parts = slot.added s ++ s.parts := by
  have hblock := parts_asBlock s
  cases slot with
  | body => exact hblock
  | branch =>
    cases s with
    | ifElse => rfl
    | _ => exact hblock
  | label =>
    cases s with
    | labeled | forLoop | forIn | forOf | whileLoop | doWhileLoop | varDecl | func | classDecl => rfl
    | _ => exact hblock

end Slot

/-! ### The parts of a normal form -/

/-- What the normal form makes of a part. -/
def Part.normal : Part → List Part
  | .list ss => [.list (Stmt.normals ss)]
  | .callable f => [.callable { f with body := f.body.normal }]
  | .alone slot s => .alone slot (slot.put s.normal) :: slot.added s.normal

/-- The second parts are those of a normal form of what has the first. -/
def NormalOf (parts parts' : List Part) : Prop := parts' = parts.flatMap Part.normal

namespace NormalOf

theorem nil : NormalOf [] [] := rfl

theorem append {a a' b b' : List Part} (h : NormalOf a a') (h' : NormalOf b b') :
    NormalOf (a ++ b) (a' ++ b') := by
  rw [NormalOf, h, h', List.flatMap_append]

theorem list {ss : List Stmt} {a a' : List Part} (h : NormalOf a a') :
    NormalOf (.list ss :: a) (.list (Stmt.normals ss) :: a') := congr(Part.list (Stmt.normals ss) :: $h)

theorem callable {f : Callable} {a a' : List Part} (h : NormalOf a a') :
    NormalOf (.callable f :: a) (.callable { f with body := f.body.normal } :: a') :=
  congr(Part.callable { f with body := f.body.normal } :: $h)

theorem alone (slot : Slot) {s : Stmt} (h : NormalOf s.parts s.normal.parts) :
    NormalOf (.alone slot s :: s.parts) (.alone slot (slot.put s.normal) :: (slot.put s.normal).parts) := by
  rw [NormalOf, Slot.parts_put, h]
  rfl

end NormalOf

/-! ### What stays -/

mutual

theorem Pat.binders_normal (q : Pat) : q.normal.binders = q.binders := by
  cases q with
  | ident | elision | expr => rfl
  | array p items => exact Pat.bindersOf_normals items
  | object p members => exact PatProperty.bindersOf_normals members
  | rest p q | withDefault p q e => exact Pat.binders_normal q

theorem Pat.bindersOf_normals (qs : List Pat) : Pat.bindersOf (Pat.normals qs) = Pat.bindersOf qs := by
  cases qs with
  | nil => rfl
  | cons q r => exact congr($(Pat.binders_normal q) ++ $(Pat.bindersOf_normals r))

theorem PatProperty.binders_normal (p : PatProperty) : p.normal.binders = p.binders := by
  cases p with
  | keyValue k q | rest p q => exact Pat.binders_normal q
  | shorthand p n e => cases e <;> rfl

theorem PatProperty.bindersOf_normals (ps : List PatProperty) :
    PatProperty.bindersOf (PatProperty.normals ps) = PatProperty.bindersOf ps := by
  cases ps with
  | nil => rfl
  | cons p r => exact congr($(PatProperty.binders_normal p) ++ $(PatProperty.bindersOf_normals r))

end

theorem Pat.parameterNames_normals (qs : List Pat) :
    Pat.parameterNames (Pat.normals qs) = Pat.parameterNames qs := by
  rw [Pat.parameterNames, Pat.bindersOf_normals, Pat.parameterNames]

theorem Param.map_pat_normals (ps : List Param) :
    (Param.normals ps).map Param.pat = Pat.normals (ps.map Param.pat) := by
  induction ps with
  | nil => rfl
  | cons p r ih =>
    cases p with
    | mk p ds i q => exact congr(q.normal :: $ih)

theorem Param.parameterNames_normals (ps : List Param) :
    Pat.parameterNames ((Param.normals ps).map Param.pat) = Pat.parameterNames (ps.map Param.pat) := by
  rw [Param.map_pat_normals, Pat.parameterNames_normals]

theorem Stmt.returnsName_normal (st : Stmt) : st.normal.returnsName = st.returnsName := by
  cases st with
  | returnStmt p e =>
    cases p with
    | some span => cases e <;> rfl
    | none =>
      cases e with
      | none => rfl
      | some e =>
        cases e with
        | «yield» p d e => cases e <;> rfl
        | _ => rfl
  | ifElse p e yes no => cases no <;> rfl
  | tryStmt p b c f => cases c <;> cases f <;> rfl
  | _ => rfl

theorem Block.returnsName_normal (b : Block) : b.normal.returnsName = b.returnsName := by
  match b with
  | .mk p [] => rfl
  | .mk p [s] => exact congr($(Stmt.returnsName_normal s) && true && p.isNone)
  | .mk p (s :: s' :: r) => exact congr($(Stmt.returnsName_normal s) && false && p.isNone)

/-- A getter stays one of the functions. -/
theorem NormalOf.getter (p : Place) {b : Block} (h : NormalOf b.inner b.normal.inner) :
    NormalOf ((b.getterPart? p).toList ++ b.inner) ((b.normal.getterPart? p).toList ++ b.normal.inner) := by
  refine NormalOf.append ?_ h
  simp only [Block.getterPart?, Block.returnsName_normal]
  split <;> rfl

/-! ### The parts of a program

Each construct has the parts of what it is made of, one after the other, and its normal form too. Only a
statement that stands alone is more: there the block may be new. -/

mutual

theorem Expr.parts_normal (e : Expr) : NormalOf e.parts e.normal.parts := by
  cases e with
  | template p chunks parts => exact Expr.partsOf_normals parts
  | tagged p tag chunks parts => exact (Expr.parts_normal tag).append (Expr.partsOf_normals parts)
  | array p items | sequence p items => exact Expr.partsOf_normals items
  | object p members => exact Property.partsOf_normals members
  | func name f => exact Function.parts_normal f
  | classExpr name c => exact Class.parts_normal c
  | arrow p a ps b =>
    have hnames := Pat.parameterNames_normals ps
    have hb := ArrowBody.parts_normal p (Pat.parameterNames ps) b
    exact (Pat.partsOf_normals ps).append (hnames.symm ▸ hb)
  | unary p op e | await p e | paren p e | spread p e | ascribed p how e | member p l e name
  | update p op pre e => exact Expr.parts_normal e
  | binary p op l r | index p link l r => exact (Expr.parts_normal l).append (Expr.parts_normal r)
  | assign p op q e => exact (Pat.parts_normal q).append (Expr.parts_normal e)
  | cond p a b c =>
    exact (Expr.parts_normal a).append ((Expr.parts_normal b).append (Expr.parts_normal c))
  | call p l e args | construct p e hasArgs args =>
    exact (Expr.parts_normal e).append (Expr.partsOf_normals args)
  | «yield» p d e =>
    cases e with
    | none => exact .nil
    | some e => exact Expr.parts_normal e
  | element p name c as_ cs => exact (JsxPart.partsOf_normals as_).append (JsxPart.partsOf_normals cs)
  | this | superRef | importRef | ident | literal | metaProperty | elision => exact .nil

theorem Expr.partsOf_normals (es : List Expr) : NormalOf (Expr.partsOf es) (Expr.partsOf (Expr.normals es)) := by
  cases es with
  | nil => exact .nil
  | cons e r => exact (Expr.parts_normal e).append (Expr.partsOf_normals r)

theorem Expr.parts?_normal? (e : Option Expr) : NormalOf (Expr.parts? e) (Expr.parts? (Expr.normal? e)) := by
  cases e with
  | none => exact .nil
  | some e => exact Expr.parts_normal e

theorem JsxPart.parts_normal (p : JsxPart) : NormalOf p.parts p.normal.parts := by
  match p with
  | .attribute _ none | .text _ | .container none => exact .nil
  | .attribute _ (some v) => exact JsxPart.parts_normal v
  | .spread e | .child e | .container (some e) => exact Expr.parts_normal e

theorem JsxPart.partsOf_normals (ps : List JsxPart) :
    NormalOf (JsxPart.partsOf ps) (JsxPart.partsOf (JsxPart.normals ps)) := by
  cases ps with
  | nil => exact .nil
  | cons p r => exact (JsxPart.parts_normal p).append (JsxPart.partsOf_normals r)

theorem Property.parts_normal (p : Property) : NormalOf p.parts p.normal.parts := by
  match p with
  | .shorthand _ none => exact .nil
  | .shorthand _ (some e) | .spread _ e => exact Expr.parts_normal e
  | .keyValue k e => exact (Key.parts_normal k).append (Expr.parts_normal e)
  | .method k f => exact (Key.parts_normal k).append (Function.parts_normal f)
  | .getter p k b => exact (Key.parts_normal k).append (.getter p (Block.inner_normal b))
  | .setter p k q b =>
    have hnames := Pat.parameterNames_normals [q]
    have hb := (Block.inner_normal b).callable (f := ⟨p, true, Pat.parameterNames [q], .block b⟩)
    exact (Key.parts_normal k).append ((Pat.parts_normal q).append (hnames.symm ▸ hb))

theorem Property.partsOf_normals (ps : List Property) :
    NormalOf (Property.partsOf ps) (Property.partsOf (Property.normals ps)) := by
  cases ps with
  | nil => exact .nil
  | cons p r => exact (Property.parts_normal p).append (Property.partsOf_normals r)

theorem Key.parts_normal (k : Key) : NormalOf k.parts k.normal.parts := by
  cases k with
  | name | literal => exact .nil
  | computed p e => exact Expr.parts_normal e

theorem Pat.parts_normal (q : Pat) : NormalOf q.parts q.normal.parts := by
  cases q with
  | ident | elision => exact .nil
  | array p items => exact Pat.partsOf_normals items
  | object p members => exact PatProperty.partsOf_normals members
  | rest p q => exact Pat.parts_normal q
  | withDefault p q e => exact (Pat.parts_normal q).append (Expr.parts_normal e)
  | expr e => exact Expr.parts_normal e

theorem Pat.partsOf_normals (qs : List Pat) : NormalOf (Pat.partsOf qs) (Pat.partsOf (Pat.normals qs)) := by
  cases qs with
  | nil => exact .nil
  | cons q r => exact (Pat.parts_normal q).append (Pat.partsOf_normals r)

theorem PatProperty.parts_normal (p : PatProperty) : NormalOf p.parts p.normal.parts := by
  match p with
  | .keyValue k q => exact (Key.parts_normal k).append (Pat.parts_normal q)
  | .shorthand _ _ none => exact .nil
  | .shorthand _ _ (some e) => exact Expr.parts_normal e
  | .rest _ q => exact Pat.parts_normal q

theorem PatProperty.partsOf_normals (ps : List PatProperty) :
    NormalOf (PatProperty.partsOf ps) (PatProperty.partsOf (PatProperty.normals ps)) := by
  cases ps with
  | nil => exact .nil
  | cons p r => exact (PatProperty.parts_normal p).append (PatProperty.partsOf_normals r)

theorem Function.parts_normal (f : Function) : NormalOf f.parts f.normal.parts := by
  match f with
  | .mk _ _ _ ds ps none =>
    exact (Expr.partsOf_normals ds).append ((Param.partsOf_normals ps).append .nil)
  | .mk p _ _ ds ps (some b) =>
    have hnames := Param.parameterNames_normals ps
    have hb := (Block.inner_normal b).callable
      (f := ⟨p, false, Pat.parameterNames (ps.map Param.pat), .block b⟩)
    exact (Expr.partsOf_normals ds).append ((Param.partsOf_normals ps).append (hnames.symm ▸ hb))

theorem Param.parts_normal (p : Param) : NormalOf p.parts p.normal.parts := by
  cases p with
  | mk p ds i q => exact (Expr.partsOf_normals ds).append (Pat.parts_normal q)

theorem Param.partsOf_normals (ps : List Param) :
    NormalOf (Param.partsOf ps) (Param.partsOf (Param.normals ps)) := by
  cases ps with
  | nil => exact .nil
  | cons p r => exact (Param.parts_normal p).append (Param.partsOf_normals r)

theorem ArrowBody.parts_normal (p : Place) (names : List String) (b : ArrowBody) :
    NormalOf (b.parts p names) (b.normal.parts p names) := by
  cases b with
  | block b => exact (Block.inner_normal b).callable
  | expr e => exact (Expr.parts_normal e).callable

theorem Block.inner_normal (b : Block) : NormalOf b.inner b.normal.inner := by
  cases b with
  | mk p ss => exact Stmt.partsOf_normals ss

theorem Block.parts_normal (b : Block) : NormalOf b.parts b.normal.parts := by
  cases b with
  | mk p ss => exact (Stmt.partsOf_normals ss).list

theorem Class.parts_normal (c : Class) : NormalOf c.parts c.normal.parts := by
  match c with
  | .mk _ ds members none =>
    exact (Expr.partsOf_normals ds).append ((ClassMember.partsOf_normals members).append .nil)
  | .mk _ ds members (some e) =>
    exact (Expr.partsOf_normals ds).append
      ((ClassMember.partsOf_normals members).append (Expr.parts_normal e))

theorem ClassMember.parts_normal (m : ClassMember) : NormalOf m.parts m.normal.parts := by
  match m with
  | .ctor _ _ ps none => exact (Param.partsOf_normals ps).append .nil
  | .ctor p _ ps (some b) =>
    have hnames := Param.parameterNames_normals ps
    have hb := (Block.inner_normal b).callable
      (f := ⟨p, false, Pat.parameterNames (ps.map Param.pat), .block b⟩)
    exact (Param.partsOf_normals ps).append (hnames.symm ▸ hb)
  | .method _ k _ _ _ f => exact (Key.parts_normal k).append (Function.parts_normal f)
  | .property _ k _ _ _ none ds =>
    exact (Key.parts_normal k).append (NormalOf.nil.append (Expr.partsOf_normals ds))
  | .property _ k _ _ _ (some v) ds =>
    exact (Key.parts_normal k).append ((Expr.parts_normal v).append (Expr.partsOf_normals ds))
  | .staticBlock _ b => exact Block.parts_normal b
  | .empty _ => exact .nil

theorem ClassMember.partsOf_normals (ms : List ClassMember) :
    NormalOf (ClassMember.partsOf ms) (ClassMember.partsOf (ClassMember.normals ms)) := by
  cases ms with
  | nil => exact .nil
  | cons m r => exact (ClassMember.parts_normal m).append (ClassMember.partsOf_normals r)

theorem Stmt.parts_normal (st : Stmt) : NormalOf st.parts st.normal.parts := by
  match st with
  | .block b => exact Block.parts_normal b
  | .withObject _ e s | .whileLoop _ e s | .doWhileLoop _ e s =>
    exact (Expr.parts_normal e).append ((Stmt.parts_normal s).alone .body)
  | .labeled _ _ s => exact (Stmt.parts_normal s).alone .label
  | .ifElse _ e yes none =>
    exact (Expr.parts_normal e).append (((Stmt.parts_normal yes).alone .body).append .nil)
  | .ifElse _ e yes (some no) =>
    exact (Expr.parts_normal e).append
      (((Stmt.parts_normal yes).alone .body).append ((Stmt.parts_normal no).alone .branch))
  | .switchOn _ e cases => exact (Expr.parts_normal e).append (SwitchCase.partsOf_normals cases)
  | .returnStmt _ (some e) | .throwStmt _ e | .expr _ e | .exportDefault _ e => exact Expr.parts_normal e
  | .tryStmt _ b none none => exact (Block.parts_normal b).append (NormalOf.nil.append .nil)
  | .tryStmt _ b (some c) none => exact (Block.parts_normal b).append ((Catch.parts_normal c).append .nil)
  | .tryStmt _ b none (some f) =>
    exact (Block.parts_normal b).append (NormalOf.nil.append (Block.parts_normal f))
  | .tryStmt _ b (some c) (some f) =>
    exact (Block.parts_normal b).append ((Catch.parts_normal c).append (Block.parts_normal f))
  | .forLoop _ h test update s =>
    exact (LoopHead.parts_normal h).append ((Expr.parts?_normal? test).append
      ((Expr.parts?_normal? update).append ((Stmt.parts_normal s).alone .body)))
  | .forIn _ h e s | .forOf _ _ h e s =>
    exact (LoopHead.parts_normal h).append
      ((Expr.parts_normal e).append ((Stmt.parts_normal s).alone .body))
  | .varDecl d => exact VarDecl.parts_normal d
  | .func _ f | .exportDefaultFunc _ _ f => exact Function.parts_normal f
  | .classDecl _ c | .exportDefaultClass _ _ c => exact Class.parts_normal c
  | .exportDecl _ d => exact Stmt.parts_normal d
  | .returnStmt _ none | .empty _ | .debugger _ | .breakTo .. | .continueTo .. | .importNames ..
  | .exportNames .. | .exportAll .. | .typed _ => exact .nil

theorem Stmt.partsOf_normals (ss : List Stmt) : NormalOf (Stmt.partsOf ss) (Stmt.partsOf (Stmt.normals ss)) := by
  cases ss with
  | nil => exact .nil
  | cons s r => exact (Stmt.parts_normal s).append (Stmt.partsOf_normals r)

theorem VarDecl.parts_normal (d : VarDecl) : NormalOf d.parts d.normal.parts := by
  cases d with
  | mk p kind b items => exact Declarator.partsOf_normals items

theorem Declarator.parts_normal (d : Declarator) : NormalOf d.parts d.normal.parts := by
  match d with
  | .mk _ q none => exact (Pat.parts_normal q).append .nil
  | .mk _ q (some e) => exact (Pat.parts_normal q).append (Expr.parts_normal e)

theorem Declarator.partsOf_normals (ds : List Declarator) :
    NormalOf (Declarator.partsOf ds) (Declarator.partsOf (Declarator.normals ds)) := by
  cases ds with
  | nil => exact .nil
  | cons d r => exact (Declarator.parts_normal d).append (Declarator.partsOf_normals r)

theorem SwitchCase.parts_normal (c : SwitchCase) : NormalOf c.parts c.normal.parts := by
  match c with
  | .mk _ none ss => exact NormalOf.nil.append (Stmt.partsOf_normals ss).list
  | .mk _ (some e) ss => exact (Expr.parts_normal e).append (Stmt.partsOf_normals ss).list

theorem SwitchCase.partsOf_normals (cs : List SwitchCase) :
    NormalOf (SwitchCase.partsOf cs) (SwitchCase.partsOf (SwitchCase.normals cs)) := by
  cases cs with
  | nil => exact .nil
  | cons c r => exact (SwitchCase.parts_normal c).append (SwitchCase.partsOf_normals r)

theorem Catch.parts_normal (c : Catch) : NormalOf c.parts c.normal.parts := by
  match c with
  | .mk _ none b => exact NormalOf.nil.append (Block.parts_normal b)
  | .mk _ (some q) b => exact (Pat.parts_normal q).append (Block.parts_normal b)

theorem LoopHead.parts_normal (h : LoopHead) : NormalOf h.parts h.normal.parts := by
  cases h with
  | none => exact .nil
  | varDecl d => exact VarDecl.parts_normal d
  | pat q => exact Pat.parts_normal q
  | expr e => exact Expr.parts_normal e

end

theorem Program.parts_normal (p : Program) : NormalOf p.parts p.normal.parts :=
  Stmt.partsOf_normals p.body

/-! ### Statements that stand alone -/

/-- A statement that would be followed by a probe, but stands alone. -/
def Part.stray? : Part → Option Stmt
  | .alone _ (.expr p e) => some (.expr p e)
  | .alone _ (.varDecl d) => some (.varDecl d)
  | .alone .. | .list _ | .callable _ => none

/-- The variables that a statement declares. -/
def Stmt.var? : Stmt → Option VarDecl
  | .varDecl d => some d
  | _ => none

/-- The variables that a label declares. -/
def Part.labelledVar? : Part → Option VarDecl
  | .alone .label s => s.var?
  | .alone .body _ | .alone .branch _ | .list _ | .callable _ => none

theorem Stmt.var?_normal (s : Stmt) : s.normal.var? = s.var?.map VarDecl.normal := by
  cases s with
  | returnStmt p e => cases e <;> rfl
  | ifElse p e yes no => cases no <;> rfl
  | tryStmt p b c f => cases c <;> cases f <;> rfl
  | _ => rfl

/-- A slot takes no expression as it is, and variables only after a label. -/
theorem stray?_put (slot : Slot) (s : Stmt) :
    (Part.alone slot (slot.put s)).stray? = (Part.alone slot s).labelledVar?.map Stmt.varDecl := by
  cases slot <;> cases s <;> rfl

theorem filterMap_stray?_added (slot : Slot) (s : Stmt) :
    (slot.added s).filterMap Part.stray? = [] := by
  unfold Slot.added
  split
  · rfl
  · split <;> rfl

theorem Part.filterMap_stray?_normal (x : Part) : x.normal.filterMap Part.stray? =
    (x.labelledVar?.map fun d => Stmt.varDecl d.normal).toList := by
  cases x with
  | list | callable => rfl
  | alone slot s =>
    have hvar : (Part.alone slot s.normal).labelledVar? =
        (Part.alone slot s).labelledVar?.map VarDecl.normal := by
      cases slot with
      | body | branch => rfl
      | label => exact Stmt.var?_normal s
    rw [Part.normal, List.filterMap_cons, filterMap_stray?_added, stray?_put, hvar, Option.map_map]
    cases (Part.alone slot s).labelledVar? <;> rfl

/-- After the normal form the expressions and declarations of variables that stand alone are the variables that
labels declare, in normal form; all others are members of lists of statements. -/
theorem Program.strays_normal (p : Program) :
    p.normal.parts.filterMap Part.stray? =
      (p.parts.filterMap Part.labelledVar?).map fun d => .varDecl d.normal := by
  have hparts : p.normal.parts = p.parts.flatMap Part.normal := p.parts_normal
  calc p.normal.parts.filterMap Part.stray?
      = p.parts.flatMap fun x => x.normal.filterMap Part.stray? := by
        rw [hparts, List.filterMap_flatMap]
    _ = p.parts.flatMap fun x => (x.labelledVar?.map fun d => Stmt.varDecl d.normal).toList := by
        simp only [Part.filterMap_stray?_normal]
    _ = (p.parts.filterMap Part.labelledVar?).map fun d => .varDecl d.normal := by
        rw [List.map_filterMap, List.filterMap_eq_flatMap_toList]

/-- Shows that `a: var x = 1; foo();` is left as it is, and that no probe tells of its variable. -/
theorem Program.stray_of_label :
    let at_ (n : Nat) : Place := some ⟨n, n + 1⟩
    let d : VarDecl := .mk (at_ 3) .var false
      [.mk (at_ 7) (.ident ⟨at_ 7, "x"⟩) (some (.literal (at_ 11) (.number "1")))]
    let foo : Expr := .call (at_ 14) .plain (.ident ⟨at_ 14, "foo"⟩) []
    let p : Program := ⟨false, none, [.labeled (at_ 0) ⟨at_ 0, "a"⟩ (.varDecl d), .expr (at_ 14) foo]⟩
    let t : Tracer := ⟨"t.js", fun n => ⟨1, n⟩⟩
    p.normal = p ∧ p.normal.parts.filterMap Part.stray? = [.varDecl d] ∧
      (p.normal.instrument t).2 = [⟨.statement, ⟨1, 14⟩, []⟩] := by
  intro at_ d foo p t
  exact ⟨rfl, rfl, rfl⟩

end StepTrace.Script
