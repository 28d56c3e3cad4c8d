import StepTrace.Proofs.Script.Unprobe

/-!
Programs that do not read the recording function. Nothing in them looks like a probe, so taking the
probes out of one leaves it as it is, and taking them out after they were put in gives it back.
-/
namespace StepTrace.Script

/-! ### Where a name is read

Only names that stand as an expression count: not those of members, keys and labels, and not those that
are declared. -/

mutual

def Expr.reads (w : String) : Expr → Bool
  | .ident n => n.text == w
  | .template _ _ parts => Expr.anyReads w parts
  | .tagged _ tag _ parts => tag.reads w || Expr.anyReads w parts
  | .array _ items | .sequence _ items => Expr.anyReads w items
  | .object _ members => Property.anyReads w members
  | .func _ f => f.reads w
  | .classExpr _ c => c.reads w
  | .arrow _ _ ps b => Pat.anyReads w ps || b.reads w
  | .unary _ _ e | .update _ _ _ e | .member _ _ e _ | .paren _ e | .await _ e | .spread _ e
  | .ascribed _ _ e => e.reads w
  | .binary _ _ l r | .index _ _ l r => l.reads w || r.reads w
  | .assign _ _ q e => q.reads w || e.reads w
  | .cond _ a b c => a.reads w || b.reads w || c.reads w
  | .call _ _ e args | .construct _ e _ args => e.reads w || Expr.anyReads w args
  | .yield _ _ e => Expr.reads? w e
  | .element _ _ _ as_ cs => JsxPart.anyReads w as_ || JsxPart.anyReads w cs
  | .this _ | .superRef _ | .importRef _ | .literal .. | .metaProperty .. | .elision => false

def Expr.anyReads (w : String) : List Expr → Bool
  | [] => false
  | e :: r => e.reads w || Expr.anyReads w r

def Expr.reads? (w : String) : Option Expr → Bool
  | none => false
  | some e => e.reads w

def JsxPart.reads (w : String) : JsxPart → Bool
  | .attribute _ none | .text _ => false
  | .attribute _ (some v) => v.reads w
  | .spread e | .child e => e.reads w
  | .container e => Expr.reads? w e

def JsxPart.anyReads (w : String) : List JsxPart → Bool
  | [] => false
  | p :: r => p.reads w || JsxPart.anyReads w r

def Property.reads (w : String) : Property → Bool
  | .shorthand _ e => Expr.reads? w e
  | .keyValue k e => k.reads w || e.reads w
  | .method k f => k.reads w || f.reads w
  | .getter _ k b => k.reads w || b.reads w
  | .setter _ k q b => k.reads w || q.reads w || b.reads w
  | .spread _ e => e.reads w

def Property.anyReads (w : String) : List Property → Bool
  | [] => false
  | p :: r => p.reads w || Property.anyReads w r

def Key.reads (w : String) : Key → Bool
  | .computed _ e => e.reads w
  | .name _ | .literal .. => false

def Pat.reads (w : String) : Pat → Bool
  | .ident _ | .elision => false
  | .array _ items => Pat.anyReads w items
  | .object _ members => PatProperty.anyReads w members
  | .rest _ q => q.reads w
  | .withDefault _ q e => q.reads w || e.reads w
  | .expr e => e.reads w

def Pat.anyReads (w : String) : List Pat → Bool
  | [] => false
  | q :: r => q.reads w || Pat.anyReads w r

def Pat.reads? (w : String) : Option Pat → Bool
  | none => false
  | some q => q.reads w

def PatProperty.reads (w : String) : PatProperty → Bool
  | .keyValue k q => k.reads w || q.reads w
  | .shorthand _ _ e => Expr.reads? w e
  | .rest _ q => q.reads w

def PatProperty.anyReads (w : String) : List PatProperty → Bool
  | [] => false
  | p :: r => p.reads w || PatProperty.anyReads w r

def Function.reads (w : String) : Function → Bool
  | .mk _ _ _ ds ps b => Expr.anyReads w ds || Param.anyReads w ps || Block.reads? w b

def Param.reads (w : String) : Param → Bool
  | .mk _ ds _ q => Expr.anyReads w ds || q.reads w

def Param.anyReads (w : String) : List Param → Bool
  | [] => false
  | p :: r => p.reads w || Param.anyReads w r

def ArrowBody.reads (w : String) : ArrowBody → Bool
  | .block b => b.reads w
  | .expr e => e.reads w

def Block.reads (w : String) : Block → Bool
  | .mk _ stmts => Stmt.anyReads w stmts

def Block.reads? (w : String) : Option Block → Bool
  | none => false
  | some b => b.reads w

def Class.reads (w : String) : Class → Bool
  | .mk _ ds members parent =>
    Expr.anyReads w ds || ClassMember.anyReads w members || Expr.reads? w parent

def ClassMember.reads (w : String) : ClassMember → Bool
  | .ctor _ _ ps b => Param.anyReads w ps || Block.reads? w b
  | .method _ k _ _ _ f => k.reads w || f.reads w
  | .property _ k _ _ _ v ds => k.reads w || Expr.reads? w v || Expr.anyReads w ds
  | .staticBlock _ b => b.reads w
  | .empty _ => false

def ClassMember.anyReads (w : String) : List ClassMember → Bool
  | [] => false
  | m :: r => m.reads w || ClassMember.anyReads w r

def Stmt.reads (w : String) : Stmt → Bool
  | .block b => b.reads w
  | .withObject _ e s | .whileLoop _ e s | .doWhileLoop _ e s => e.reads w || s.reads w
  | .returnStmt _ e => Expr.reads? w e
  | .labeled _ _ s | .exportDecl _ s => s.reads w
  | .ifElse _ e yes no => e.reads w || yes.reads w || Stmt.reads? w no
  | .switchOn _ e cases => e.reads w || SwitchCase.anyReads w cases
  | .throwStmt _ e | .expr _ e | .exportDefault _ e => e.reads w
  | .tryStmt _ b c f => b.reads w || Catch.reads? w c || Block.reads? w f
  | .forLoop _ h test update s =>
    h.reads w || Expr.reads? w test || Expr.reads? w update || s.reads w
  | .forIn _ h e s | .forOf _ _ h e s => h.reads w || e.reads w || s.reads w
  | .varDecl d => d.reads w
  | .func _ f | .exportDefaultFunc _ _ f => f.reads w
  | .classDecl _ c | .exportDefaultClass _ _ c => c.reads w
  | .empty _ | .debugger _ | .breakTo .. | .continueTo .. | .importNames .. | .exportNames ..
  | .exportAll .. | .typed _ => false

def Stmt.reads? (w : String) : Option Stmt → Bool
  | none => false
  | some s => s.reads w

def Stmt.anyReads (w : String) : List Stmt → Bool
  | [] => false
  | s :: r => s.reads w || Stmt.anyReads w r

def VarDecl.reads (w : String) : VarDecl → Bool
  | .mk _ _ _ items => Declarator.anyReads w items

def Declarator.reads (w : String) : Declarator → Bool
  | .mk _ q e => q.reads w || Expr.reads? w e

def Declarator.anyReads (w : String) : List Declarator → Bool
  | [] => false
  | d :: r => d.reads w || Declarator.anyReads w r

def SwitchCase.reads (w : String) : SwitchCase → Bool
  | .mk _ e stmts => Expr.reads? w e || Stmt.anyReads w stmts

def SwitchCase.anyReads (w : String) : List SwitchCase → Bool
  | [] => false
  | c :: r => c.reads w || SwitchCase.anyReads w r

def Catch.reads (w : String) : Catch → Bool
  | .mk _ q b => Pat.reads? w q || b.reads w

def Catch.reads? (w : String) : Option Catch → Bool
  | none => false
  | some c => c.reads w

def LoopHead.reads (w : String) : LoopHead → Bool
  | .none => false
  | .varDecl d => d.reads w
  | .pat q => q.reads w
  | .expr e => e.reads w

end

/-- Whether a name stands in a program as an expression. -/
def Program.reads (w : String) (p : Program) : Bool := Stmt.anyReads w p.body

/-! ### Programs that do not read the recording function -/

/-- What does not read the recording function does not call it. -/
theorem isRecordCall_of_not_reads {e : Expr} (h : e.reads recordName = false) :
    e.isRecordCall = false := by
  cases e with
  | call p l f args =>
    have hf := (Bool.or_eq_false_iff.1 h).1
    cases f with
    | ident n => exact hf
    | _ => rfl
  | _ => rfl

theorem enclosed_of_not_reads (p : Place) {e : Expr} (h : e.reads recordName = false) :
    Expr.enclosed p e = .paren p e := by
  unfold Expr.enclosed
  split
  · next c x =>
    have hc := isRecordCall_of_not_reads (Bool.or_eq_false_iff.1 h).1
    rw [hc]
    simp
  · rfl

theorem isProbe_of_not_reads {s : Stmt} (h : s.reads recordName = false) : s.isProbe = false := by
  cases s with
  | expr p e => exact isRecordCall_of_not_reads h
  | _ => rfl

mutual

theorem Expr.unprobe_of_not_reads (e : Expr) (h : e.reads recordName = false) : e.unprobe = e := by
  cases e with
  | template p chunks parts =>
    exact congr(Expr.template p chunks $(Expr.unprobes_of_not_reads parts h))
  | tagged p tag chunks parts =>
    obtain ⟨htag, hparts⟩ := Bool.or_eq_false_iff.1 h
    exact congr(Expr.tagged p $(Expr.unprobe_of_not_reads tag htag) chunks
      $(Expr.unprobes_of_not_reads parts hparts))
  | array p items => exact congr(Expr.array p $(Expr.unprobes_of_not_reads items h))
  | object p members => exact congr(Expr.object p $(Property.unprobes_of_not_reads members h))
  | func n f => exact congr(Expr.func n $(Function.unprobe_of_not_reads f h))
  | classExpr n c => exact congr(Expr.classExpr n $(Class.unprobe_of_not_reads c h))
  | arrow p a ps b =>
    obtain ⟨hps, hb⟩ := Bool.or_eq_false_iff.1 h
    exact congr(Expr.arrow p a $(Pat.unprobes_of_not_reads ps hps)
      $(ArrowBody.unprobe_of_not_reads b hb))
  | unary p op e => exact congr(Expr.unary p op $(Expr.unprobe_of_not_reads e h))
  | update p op pre e => exact congr(Expr.update p op pre $(Expr.unprobe_of_not_reads e h))
  | binary p op l r =>
    obtain ⟨hl, hr⟩ := Bool.or_eq_false_iff.1 h
    exact congr(Expr.binary p op $(Expr.unprobe_of_not_reads l hl) $(Expr.unprobe_of_not_reads r hr))
  | assign p op q e =>
    obtain ⟨hq, he⟩ := Bool.or_eq_false_iff.1 h
    exact congr(Expr.assign p op $(Pat.unprobe_of_not_reads q hq) $(Expr.unprobe_of_not_reads e he))
  | cond p a b c =>
    obtain ⟨hab, hc⟩ := Bool.or_eq_false_iff.1 h
    obtain ⟨ha, hb⟩ := Bool.or_eq_false_iff.1 hab
    exact congr(Expr.cond p $(Expr.unprobe_of_not_reads a ha) $(Expr.unprobe_of_not_reads b hb)
      $(Expr.unprobe_of_not_reads c hc))
  | member p l e n => exact congr(Expr.member p l $(Expr.unprobe_of_not_reads e h) n)
  | index p l e k =>
    obtain ⟨he, hk⟩ := Bool.or_eq_false_iff.1 h
    exact congr(Expr.index p l $(Expr.unprobe_of_not_reads e he) $(Expr.unprobe_of_not_reads k hk))
  | call p l e args =>
    obtain ⟨he, hargs⟩ := Bool.or_eq_false_iff.1 h
    exact congr(Expr.call p l $(Expr.unprobe_of_not_reads e he) $(Expr.unprobes_of_not_reads args hargs))
  | construct p e hasArgs args =>
    obtain ⟨he, hargs⟩ := Bool.or_eq_false_iff.1 h
    exact congr(Expr.construct p $(Expr.unprobe_of_not_reads e he) hasArgs
      $(Expr.unprobes_of_not_reads args hargs))
  | sequence p items => exact congr(Expr.sequence p $(Expr.unprobes_of_not_reads items h))
  | paren p e =>
    have he := Expr.unprobe_of_not_reads e h
    exact congr(Expr.enclosed p $he).trans (enclosed_of_not_reads p h)
  | await p e => exact congr(Expr.await p $(Expr.unprobe_of_not_reads e h))
  | yield p d e => exact congr(Expr.yield p d $(Expr.unprobe?_of_not_reads e h))
  | spread p e => exact congr(Expr.spread p $(Expr.unprobe_of_not_reads e h))
  | element p n c as_ cs =>
    obtain ⟨has, hcs⟩ := Bool.or_eq_false_iff.1 h
    exact congr(Expr.element p n c $(JsxPart.unprobes_of_not_reads as_ has)
      $(JsxPart.unprobes_of_not_reads cs hcs))
  | ascribed p how e => exact congr(Expr.ascribed p how $(Expr.unprobe_of_not_reads e h))
  | this | superRef | importRef | ident | literal | metaProperty | elision => rfl

theorem Expr.unprobes_of_not_reads (es : List Expr) (h : Expr.anyReads recordName es = false) :
    Expr.unprobes es = es := by
  cases es with
  | nil => rfl
  | cons e r =>
    obtain ⟨he, hr⟩ := Bool.or_eq_false_iff.1 h
    exact congr($(Expr.unprobe_of_not_reads e he) :: $(Expr.unprobes_of_not_reads r hr))

theorem Expr.unprobe?_of_not_reads (e : Option Expr) (h : Expr.reads? recordName e = false) :
    Expr.unprobe? e = e := by
  cases e with
  | none => rfl
  | some e => exact congr(some $(Expr.unprobe_of_not_reads e h))

theorem JsxPart.unprobe_of_not_reads (p : JsxPart) (h : p.reads recordName = false) :
    p.unprobe = p := by
  match p with
  | .attribute n none | .text v => rfl
  | .attribute n (some v) => exact congr(JsxPart.attribute n (some $(JsxPart.unprobe_of_not_reads v h)))
  | .spread e => exact congr(JsxPart.spread $(Expr.unprobe_of_not_reads e h))
  | .container e => exact congr(JsxPart.container $(Expr.unprobe?_of_not_reads e h))
  | .child e => exact congr(JsxPart.child $(Expr.unprobe_of_not_reads e h))

theorem JsxPart.unprobes_of_not_reads (ps : List JsxPart) (h : JsxPart.anyReads recordName ps = false) :
    JsxPart.unprobes ps = ps := by
  cases ps with
  | nil => rfl
  | cons p r =>
    obtain ⟨hp, hr⟩ := Bool.or_eq_false_iff.1 h
    exact congr($(JsxPart.unprobe_of_not_reads p hp) :: $(JsxPart.unprobes_of_not_reads r hr))

theorem Property.unprobe_of_not_reads (p : Property) (h : p.reads recordName = false) :
    p.unprobe = p := by
  cases p with
  | shorthand n e => exact congr(Property.shorthand n $(Expr.unprobe?_of_not_reads e h))
  | keyValue k e =>
    obtain ⟨hk, he⟩ := Bool.or_eq_false_iff.1 h
    exact congr(Property.keyValue $(Key.unprobe_of_not_reads k hk) $(Expr.unprobe_of_not_reads e he))
  | method k f =>
    obtain ⟨hk, hf⟩ := Bool.or_eq_false_iff.1 h
    exact congr(Property.method $(Key.unprobe_of_not_reads k hk) $(Function.unprobe_of_not_reads f hf))
  | getter p k b =>
    obtain ⟨hk, hb⟩ := Bool.or_eq_false_iff.1 h
    exact congr(Property.getter p $(Key.unprobe_of_not_reads k hk) $(Block.unprobe_of_not_reads b hb))
  | setter p k q b =>
    obtain ⟨hkq, hb⟩ := Bool.or_eq_false_iff.1 h
    obtain ⟨hk, hq⟩ := Bool.or_eq_false_iff.1 hkq
    exact congr(Property.setter p $(Key.unprobe_of_not_reads k hk) $(Pat.unprobe_of_not_reads q hq)
      $(Block.unprobe_of_not_reads b hb))
  | spread p e => exact congr(Property.spread p $(Expr.unprobe_of_not_reads e h))

theorem Property.unprobes_of_not_reads (ps : List Property)
    (h : Property.anyReads recordName ps = false) : Property.unprobes ps = ps := by
  cases ps with
  | nil => rfl
  | cons p r =>
    obtain ⟨hp, hr⟩ := Bool.or_eq_false_iff.1 h
    exact congr($(Property.unprobe_of_not_reads p hp) :: $(Property.unprobes_of_not_reads r hr))

theorem Key.unprobe_of_not_reads (k : Key) (h : k.reads recordName = false) : k.unprobe = k := by
  cases k with
  | computed p e => exact congr(Key.computed p $(Expr.unprobe_of_not_reads e h))
  | name | literal => rfl

theorem Pat.unprobe_of_not_reads (q : Pat) (h : q.reads recordName = false) : q.unprobe = q := by
  cases q with
  | ident | elision => rfl
  | array p items => exact congr(Pat.array p $(Pat.unprobes_of_not_reads items h))
  | object p members => exact congr(Pat.object p $(PatProperty.unprobes_of_not_reads members h))
  | rest p q => exact congr(Pat.rest p $(Pat.unprobe_of_not_reads q h))
  | withDefault p q e =>
    obtain ⟨hq, he⟩ := Bool.or_eq_false_iff.1 h
    exact congr(Pat.withDefault p $(Pat.unprobe_of_not_reads q hq) $(Expr.unprobe_of_not_reads e he))
  | expr e => exact congr(Pat.expr $(Expr.unprobe_of_not_reads e h))

theorem Pat.unprobes_of_not_reads (qs : List Pat) (h : Pat.anyReads recordName qs = false) :
    Pat.unprobes qs = qs := by
  cases qs with
  | nil => rfl
  | cons q r =>
    obtain ⟨hq, hr⟩ := Bool.or_eq_false_iff.1 h
    exact congr($(Pat.unprobe_of_not_reads q hq) :: $(Pat.unprobes_of_not_reads r hr))

theorem Pat.unprobe?_of_not_reads (q : Option Pat) (h : Pat.reads? recordName q = false) :
    Pat.unprobe? q = q := by
  cases q with
  | none => rfl
  | some q => exact congr(some $(Pat.unprobe_of_not_reads q h))

theorem PatProperty.unprobe_of_not_reads (p : PatProperty) (h : p.reads recordName = false) :
    p.unprobe = p := by
  cases p with
  | keyValue k q =>
    obtain ⟨hk, hq⟩ := Bool.or_eq_false_iff.1 h
    exact congr(PatProperty.keyValue $(Key.unprobe_of_not_reads k hk) $(Pat.unprobe_of_not_reads q hq))
  | shorthand p n e => exact congr(PatProperty.shorthand p n $(Expr.unprobe?_of_not_reads e h))
  | rest p q => exact congr(PatProperty.rest p $(Pat.unprobe_of_not_reads q h))

theorem PatProperty.unprobes_of_not_reads (ps : List PatProperty)
    (h : PatProperty.anyReads recordName ps = false) : PatProperty.unprobes ps = ps := by
  cases ps with
  | nil => rfl
  | cons p r =>
    obtain ⟨hp, hr⟩ := Bool.or_eq_false_iff.1 h
    exact congr($(PatProperty.unprobe_of_not_reads p hp) :: $(PatProperty.unprobes_of_not_reads r hr))

theorem Function.unprobe_of_not_reads (f : Function) (h : f.reads recordName = false) :
    f.unprobe = f := by
  cases f with
  | mk p a g ds ps b =>
    obtain ⟨hdps, hb⟩ := Bool.or_eq_false_iff.1 h
    obtain ⟨hds, hps⟩ := Bool.or_eq_false_iff.1 hdps
    exact congr(Function.mk p a g $(Expr.unprobes_of_not_reads ds hds)
      $(Param.unprobes_of_not_reads ps hps) $(Block.unprobe?_of_not_reads b hb))

theorem Param.unprobe_of_not_reads (p : Param) (h : p.reads recordName = false) : p.unprobe = p := by
  cases p with
  | mk p ds i q =>
    obtain ⟨hds, hq⟩ := Bool.or_eq_false_iff.1 h
    exact congr(Param.mk p $(Expr.unprobes_of_not_reads ds hds) i $(Pat.unprobe_of_not_reads q hq))

theorem Param.unprobes_of_not_reads (ps : List Param) (h : Param.anyReads recordName ps = false) :
    Param.unprobes ps = ps := by
  cases ps with
  | nil => rfl
  | cons p r =>
    obtain ⟨hp, hr⟩ := Bool.or_eq_false_iff.1 h
    exact congr($(Param.unprobe_of_not_reads p hp) :: $(Param.unprobes_of_not_reads r hr))

theorem ArrowBody.unprobe_of_not_reads (b : ArrowBody) (h : b.reads recordName = false) :
    b.unprobe = b := by
  cases b with
  | block b => exact congr(ArrowBody.block $(Block.unprobe_of_not_reads b h))
  | expr e => exact congr(ArrowBody.expr $(Expr.unprobe_of_not_reads e h))

theorem Block.unprobe_of_not_reads (b : Block) (h : b.reads recordName = false) : b.unprobe = b := by
  cases b with
  | mk p stmts => exact congr(Block.mk p $(Stmt.unprobes_of_not_reads stmts h))

theorem Block.unprobe?_of_not_reads (b : Option Block) (h : Block.reads? recordName b = false) :
    Block.unprobe? b = b := by
  cases b with
  | none => rfl
  | some b => exact congr(some $(Block.unprobe_of_not_reads b h))

theorem Class.unprobe_of_not_reads (c : Class) (h : c.reads recordName = false) : c.unprobe = c := by
  cases c with
  | mk p ds members parent =>
    obtain ⟨hdm, hparent⟩ := Bool.or_eq_false_iff.1 h
    obtain ⟨hds, hmembers⟩ := Bool.or_eq_false_iff.1 hdm
    exact congr(Class.mk p $(Expr.unprobes_of_not_reads ds hds)
      $(ClassMember.unprobes_of_not_reads members hmembers)
      $(Expr.unprobe?_of_not_reads parent hparent))

theorem ClassMember.unprobe_of_not_reads (m : ClassMember) (h : m.reads recordName = false) :
    m.unprobe = m := by
  cases m with
  | ctor p k ps b =>
    obtain ⟨hps, hb⟩ := Bool.or_eq_false_iff.1 h
    exact congr(ClassMember.ctor p k $(Param.unprobes_of_not_reads ps hps)
      $(Block.unprobe?_of_not_reads b hb))
  | method p k kind st e f =>
    obtain ⟨hk, hf⟩ := Bool.or_eq_false_iff.1 h
    exact congr(ClassMember.method p $(Key.unprobe_of_not_reads k hk) kind st e
      $(Function.unprobe_of_not_reads f hf))
  | property p k st e a v ds =>
    obtain ⟨hkv, hds⟩ := Bool.or_eq_false_iff.1 h
    obtain ⟨hk, hv⟩ := Bool.or_eq_false_iff.1 hkv
    exact congr(ClassMember.property p $(Key.unprobe_of_not_reads k hk) st e a
      $(Expr.unprobe?_of_not_reads v hv) $(Expr.unprobes_of_not_reads ds hds))
  | staticBlock p b => exact congr(ClassMember.staticBlock p $(Block.unprobe_of_not_reads b h))
  | empty p => rfl

theorem ClassMember.unprobes_of_not_reads (ms : List ClassMember)
    (h : ClassMember.anyReads recordName ms = false) : ClassMember.unprobes ms = ms := by
  cases ms with
  | nil => rfl
  | cons m r =>
    obtain ⟨hm, hr⟩ := Bool.or_eq_false_iff.1 h
    exact congr($(ClassMember.unprobe_of_not_reads m hm) :: $(ClassMember.unprobes_of_not_reads r hr))

theorem Stmt.unprobe_of_not_reads (s : Stmt) (h : s.reads recordName = false) : s.unprobe = s := by
  cases s with
  | block b => exact congr(Stmt.block $(Block.unprobe_of_not_reads b h))
  | withObject p e s =>
    obtain ⟨he, hs⟩ := Bool.or_eq_false_iff.1 h
    exact congr(Stmt.withObject p $(Expr.unprobe_of_not_reads e he) $(Stmt.unprobe_of_not_reads s hs))
  | returnStmt p e => exact congr(Stmt.returnStmt p $(Expr.unprobe?_of_not_reads e h))
  | labeled p l s => exact congr(Stmt.labeled p l $(Stmt.unprobe_of_not_reads s h))
  | ifElse p e yes no =>
    obtain ⟨hey, hno⟩ := Bool.or_eq_false_iff.1 h
    obtain ⟨he, hyes⟩ := Bool.or_eq_false_iff.1 hey
    exact congr(Stmt.ifElse p $(Expr.unprobe_of_not_reads e he) $(Stmt.unprobe_of_not_reads yes hyes)
      $(Stmt.unprobe?_of_not_reads no hno))
  | switchOn p e cases =>
    obtain ⟨he, hcases⟩ := Bool.or_eq_false_iff.1 h
    exact congr(Stmt.switchOn p $(Expr.unprobe_of_not_reads e he)
      $(SwitchCase.unprobes_of_not_reads cases hcases))
  | throwStmt p e => exact congr(Stmt.throwStmt p $(Expr.unprobe_of_not_reads e h))
  | tryStmt p b c f =>
    obtain ⟨hbc, hf⟩ := Bool.or_eq_false_iff.1 h
    obtain ⟨hb, hc⟩ := Bool.or_eq_false_iff.1 hbc
    exact congr(Stmt.tryStmt p $(Block.unprobe_of_not_reads b hb) $(Catch.unprobe?_of_not_reads c hc)
      $(Block.unprobe?_of_not_reads f hf))
  | whileLoop p e s =>
    obtain ⟨he, hs⟩ := Bool.or_eq_false_iff.1 h
    exact congr(Stmt.whileLoop p $(Expr.unprobe_of_not_reads e he) $(Stmt.unprobe_of_not_reads s hs))
  | doWhileLoop p e s =>
    obtain ⟨he, hs⟩ := Bool.or_eq_false_iff.1 h
    exact congr(Stmt.doWhileLoop p $(Expr.unprobe_of_not_reads e he) $(Stmt.unprobe_of_not_reads s hs))
  | forLoop p head test update s =>
    obtain ⟨hhtu, hs⟩ := Bool.or_eq_false_iff.1 h
    obtain ⟨hht, hupdate⟩ := Bool.or_eq_false_iff.1 hhtu
    obtain ⟨hhead, htest⟩ := Bool.or_eq_false_iff.1 hht
    exact congr(Stmt.forLoop p $(LoopHead.unprobe_of_not_reads head hhead)
      $(Expr.unprobe?_of_not_reads test htest) $(Expr.unprobe?_of_not_reads update hupdate)
      $(Stmt.unprobe_of_not_reads s hs))
  | forIn p head e s =>
    obtain ⟨hhe, hs⟩ := Bool.or_eq_false_iff.1 h
    obtain ⟨hhead, he⟩ := Bool.or_eq_false_iff.1 hhe
    exact congr(Stmt.forIn p $(LoopHead.unprobe_of_not_reads head hhead)
      $(Expr.unprobe_of_not_reads e he) $(Stmt.unprobe_of_not_reads s hs))
  | forOf p a head e s =>
    obtain ⟨hhe, hs⟩ := Bool.or_eq_false_iff.1 h
    obtain ⟨hhead, he⟩ := Bool.or_eq_false_iff.1 hhe
    exact congr(Stmt.forOf p a $(LoopHead.unprobe_of_not_reads head hhead)
      $(Expr.unprobe_of_not_reads e he) $(Stmt.unprobe_of_not_reads s hs))
  | varDecl d => exact congr(Stmt.varDecl $(VarDecl.unprobe_of_not_reads d h))
  | func n f => exact congr(Stmt.func n $(Function.unprobe_of_not_reads f h))
  | classDecl n c => exact congr(Stmt.classDecl n $(Class.unprobe_of_not_reads c h))
  | expr p e => exact congr(Stmt.expr p $(Expr.unprobe_of_not_reads e h))
  | exportDecl p d => exact congr(Stmt.exportDecl p $(Stmt.unprobe_of_not_reads d h))
  | exportDefault p e => exact congr(Stmt.exportDefault p $(Expr.unprobe_of_not_reads e h))
  | exportDefaultFunc p n f =>
    exact congr(Stmt.exportDefaultFunc p n $(Function.unprobe_of_not_reads f h))
  | exportDefaultClass p n c =>
    exact congr(Stmt.exportDefaultClass p n $(Class.unprobe_of_not_reads c h))
  | empty | debugger | breakTo | continueTo | importNames | exportNames | exportAll | typed => rfl

theorem Stmt.unprobe?_of_not_reads (s : Option Stmt) (h : Stmt.reads? recordName s = false) :
    Stmt.unprobe? s = s := by
  cases s with
  | none => rfl
  | some s => exact congr(some $(Stmt.unprobe_of_not_reads s h))

theorem Stmt.unprobes_of_not_reads (ss : List Stmt) (h : Stmt.anyReads recordName ss = false) :
    Stmt.unprobes ss = ss := by
  cases ss with
  | nil => rfl
  | cons s r =>
    obtain ⟨hs, hr⟩ := Bool.or_eq_false_iff.1 h
    rw [Stmt.unprobes_cons, Stmt.unprobe_of_not_reads s hs, isProbe_of_not_reads hs,
      Stmt.unprobes_of_not_reads r hr]
    rfl

theorem VarDecl.unprobe_of_not_reads (d : VarDecl) (h : d.reads recordName = false) :
    d.unprobe = d := by
  cases d with
  | mk p k d items => exact congr(VarDecl.mk p k d $(Declarator.unprobes_of_not_reads items h))

theorem Declarator.unprobe_of_not_reads (d : Declarator) (h : d.reads recordName = false) :
    d.unprobe = d := by
  cases d with
  | mk p q e =>
    obtain ⟨hq, he⟩ := Bool.or_eq_false_iff.1 h
    exact congr(Declarator.mk p $(Pat.unprobe_of_not_reads q hq) $(Expr.unprobe?_of_not_reads e he))

theorem Declarator.unprobes_of_not_reads (ds : List Declarator)
    (h : Declarator.anyReads recordName ds = false) : Declarator.unprobes ds = ds := by
  cases ds with
  | nil => rfl
  | cons d r =>
    obtain ⟨hd, hr⟩ := Bool.or_eq_false_iff.1 h
    exact congr($(Declarator.unprobe_of_not_reads d hd) :: $(Declarator.unprobes_of_not_reads r hr))

theorem SwitchCase.unprobe_of_not_reads (c : SwitchCase) (h : c.reads recordName = false) :
    c.unprobe = c := by
  cases c with
  | mk p e stmts =>
    obtain ⟨he, hstmts⟩ := Bool.or_eq_false_iff.1 h
    exact congr(SwitchCase.mk p $(Expr.unprobe?_of_not_reads e he)
      $(Stmt.unprobes_of_not_reads stmts hstmts))

theorem SwitchCase.unprobes_of_not_reads (cs : List SwitchCase)
    (h : SwitchCase.anyReads recordName cs = false) : SwitchCase.unprobes cs = cs := by
  cases cs with
  | nil => rfl
  | cons c r =>
    obtain ⟨hc, hr⟩ := Bool.or_eq_false_iff.1 h
    exact congr($(SwitchCase.unprobe_of_not_reads c hc) :: $(SwitchCase.unprobes_of_not_reads r hr))

theorem Catch.unprobe_of_not_reads (c : Catch) (h : c.reads recordName = false) : c.unprobe = c := by
  cases c with
  | mk p q b =>
    obtain ⟨hq, hb⟩ := Bool.or_eq_false_iff.1 h
    exact congr(Catch.mk p $(Pat.unprobe?_of_not_reads q hq) $(Block.unprobe_of_not_reads b hb))

theorem Catch.unprobe?_of_not_reads (c : Option Catch) (h : Catch.reads? recordName c = false) :
    Catch.unprobe? c = c := by
  cases c with
  | none => rfl
  | some c => exact congr(some $(Catch.unprobe_of_not_reads c h))

theorem LoopHead.unprobe_of_not_reads (head : LoopHead) (h : head.reads recordName = false) :
    head.unprobe = head := by
  cases head with
  | none => rfl
  | varDecl d => exact congr(LoopHead.varDecl $(VarDecl.unprobe_of_not_reads d h))
  | pat q => exact congr(LoopHead.pat $(Pat.unprobe_of_not_reads q h))
  | expr e => exact congr(LoopHead.expr $(Expr.unprobe_of_not_reads e h))

end

/-! ### Instrumented programs -/

/-- Taking the probes out of a program with probes gives the program back, with all its statements in
order and every part where it was read, if the program does not read the recording function itself. -/
theorem Program.unprobe_of_instrument (t : Tracer) (p : Program) (h : p.reads recordName = false) :
    (p.instrument t).1.unprobe = p := by
  rw [unprobe_instrument_program, Stmt.unprobes_of_not_reads p.body h]

/-- Probes after statements, at the start of a function after its directive, and before the value of an
arrow function. -/
theorem Program.unprobe_of_instrument_nested :
    let at_ (n : Nat) : Place := some ⟨n, n + 1⟩
    let name (n : Nat) (text : String) : Ident := ⟨at_ n, text⟩
    let directive : Stmt := .expr (at_ 5) (.literal (at_ 5) (.string "use strict" "'use strict'"))
    let assigned : Stmt := .expr (at_ 6)
      (.assign (at_ 6) .set (.ident (name 6 "x")) (.ident (name 7 "y")))
    let f : Function := .mk (at_ 1) false false [] [.mk (at_ 2) [] false (.ident (name 2 "y"))]
      (some (.mk (at_ 4) [directive, assigned]))
    let arrow : Expr := .arrow (at_ 9) false [.ident (name 9 "z")] (.expr (.ident (name 10 "z")))
    let p : Program := ⟨true, none, [directive, .func (name 0 "f") f,
      .varDecl (.mk (at_ 8) .const false [.mk (at_ 8) (.ident (name 8 "g")) (some arrow)])]⟩
    let t : Tracer := ⟨"f.js", fun n => ⟨1, n⟩⟩
    p.reads recordName = false ∧
      (p.instrument t).2.map ProbeSite.kind = [.entry, .statement, .implicitReturn, .statement] ∧
      (p.instrument t).1.unprobe = p := by
  intro at_ name directive assigned f arrow p t
  have h : p.reads recordName = false := by decide +kernel
  exact ⟨h, by decide +kernel, Program.unprobe_of_instrument t p h⟩

end StepTrace.Script
