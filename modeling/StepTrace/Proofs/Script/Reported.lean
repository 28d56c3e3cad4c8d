import Mathlib.Data.Multiset.OrderedMonoid
import StepTrace.Proofs.Script.Calls
import StepTrace.Proofs.Script.Reads

/-!
What the calls in an instrumented program tell. A program that does not read the recording function has no
calls of it, so those of its probes are all that there are, and they tell what the reported sites say.
-/
namespace StepTrace.Script

open Trace

/-! ### What a call tells -/

/-- What a call of the recording function tells when it is read: where the step is, the variables that its
getters return under their own names, whether the value of a function follows, and the file. -/
structure Report where
  position : Position
  names : List String
  isReturn : Bool
  file : String
deriving DecidableEq, Repr

/-- The name of a getter that returns the variable of that name. -/
def Property.returned? : Property → Option String
  | .getter _ (.name key) (.mk _ [.returnStmt _ (some (.ident n))]) =>
    if n.text = key.text then some n.text else none
  | _ => none

/-- The number that decimal digits stand for. -/
def decimal? (raw : String) : Option Nat :=
  if raw.toList.all Char.isDigit then some (Nat.ofDigitChars 10 raw.toList 0) else none

/-- Reads a call of the recording function; there is no report if it has another form. -/
def Expr.report? : Expr → Option Report
  | .call _ .plain f [.literal _ (.number line), .literal _ (.number column), .object _ members,
      .literal _ (.boolean isReturn), .literal _ (.string file _)] =>
    if f.isIdentOf recordName then do
      let line ← decimal? line
      let column ← decimal? column
      let names ← members.mapM Property.returned?
      return ⟨⟨line, column⟩, names, isReturn, file⟩
    else none
  | _ => none

/-- What a site says of its probe in a file. -/
def ProbeSite.report (file : String) (s : ProbeSite) : Report :=
  ⟨s.position, s.names, s.kind = .implicitReturn, file⟩

theorem decimal?_toString (n : Nat) : decimal? (toString n) = some n := by
  have hdigits : (toString n).toList = Nat.toDigits 10 n := Nat.toList_repr
  have hall : (Nat.toDigits 10 n).all Char.isDigit := List.all_eq_true.2 fun c hc =>
    Nat.isDigit_of_mem_toDigits (by decide) (by decide) hc
  rw [decimal?, hdigits, if_pos hall, Nat.ofDigitChars_ten_toDigits]

theorem mapM_returned?_getters (names : List String) :
    (names.map Probe.getter).mapM Property.returned? = some names := by
  induction names with
  | nil => rfl
  | cons name r ih =>
    have hname : (Probe.getter name).returned? = some name := if_pos rfl
    simp [hname, ih]

/-- The call of a probe tells what its site says. -/
theorem report?_call (file : String) (s : ProbeSite) :
    (Probe.call file s).report? = some (s.report file) := by
  have hrecord : (Probe.ident recordName).isIdentOf recordName = true := by decide
  rw [Probe.call, Probe.number, Probe.number, Expr.report?, if_pos hrecord, decimal?_toString,
    decimal?_toString, mapM_returned?_getters]
  rfl

/-! ### Programs without calls of their own -/

theorem isIdentOf_of_not_reads {w : String} {e : Expr} (h : e.reads w = false) :
    e.isIdentOf w = false := by
  cases e with
  | ident n => exact h
  | _ => rfl

mutual

theorem Expr.calls_of_not_reads (e : Expr) (h : e.reads recordName = false) : e.calls = 0 := by
  cases e with
  | template p chunks parts => exact Expr.callsOf_of_not_reads parts h
  | tagged p tag chunks parts =>
    obtain ⟨htag, hparts⟩ := Bool.or_eq_false_iff.1 h
    exact add_eq_zero.2 ⟨Expr.calls_of_not_reads tag htag, Expr.callsOf_of_not_reads parts hparts⟩
  | array p items | sequence p items => exact Expr.callsOf_of_not_reads items h
  | object p members => exact Property.callsOf_of_not_reads members h
  | func n f => exact Function.calls_of_not_reads f h
  | classExpr n c => exact Class.calls_of_not_reads c h
  | arrow p a ps b =>
    obtain ⟨hps, hb⟩ := Bool.or_eq_false_iff.1 h
    exact add_eq_zero.2 ⟨Pat.callsOf_of_not_reads ps hps, ArrowBody.calls_of_not_reads b hb⟩
  | unary p op e | update p op pre e | member p l e n | paren p e | await p e | spread p e
  | ascribed p how e => exact Expr.calls_of_not_reads e h
  | binary p op l r | index p op l r =>
    obtain ⟨hl, hr⟩ := Bool.or_eq_false_iff.1 h
    exact add_eq_zero.2 ⟨Expr.calls_of_not_reads l hl, Expr.calls_of_not_reads r hr⟩
  | assign p op q e =>
    obtain ⟨hq, he⟩ := Bool.or_eq_false_iff.1 h
    exact add_eq_zero.2 ⟨Pat.calls_of_not_reads q hq, Expr.calls_of_not_reads e he⟩
  | cond p a b c =>
    obtain ⟨hab, hc⟩ := Bool.or_eq_false_iff.1 h
    obtain ⟨ha, hb⟩ := Bool.or_eq_false_iff.1 hab
    exact add_eq_zero.2 ⟨add_eq_zero.2 ⟨Expr.calls_of_not_reads a ha, Expr.calls_of_not_reads b hb⟩,
      Expr.calls_of_not_reads c hc⟩
  | call p l e args =>
    obtain ⟨he, hargs⟩ := Bool.or_eq_false_iff.1 h
    rw [Expr.calls, isIdentOf_of_not_reads he, if_neg Bool.false_ne_true, zero_add]
    exact add_eq_zero.2 ⟨Expr.calls_of_not_reads e he, Expr.callsOf_of_not_reads args hargs⟩
  | construct p e hasArgs args =>
    obtain ⟨he, hargs⟩ := Bool.or_eq_false_iff.1 h
    exact add_eq_zero.2 ⟨Expr.calls_of_not_reads e he, Expr.callsOf_of_not_reads args hargs⟩
  | yield p d e => exact Expr.calls?_of_not_reads e h
  | element p n c as_ cs =>
    obtain ⟨has, hcs⟩ := Bool.or_eq_false_iff.1 h
    exact add_eq_zero.2 ⟨JsxPart.callsOf_of_not_reads as_ has, JsxPart.callsOf_of_not_reads cs hcs⟩
  | this | superRef | importRef | ident | literal | metaProperty | elision => exact rfl

theorem Expr.callsOf_of_not_reads (es : List Expr) (h : Expr.anyReads recordName es = false) :
    Expr.callsOf es = 0 := by
  cases es with
  | nil => exact rfl
  | cons e r =>
    obtain ⟨he, hr⟩ := Bool.or_eq_false_iff.1 h
    exact add_eq_zero.2 ⟨Expr.calls_of_not_reads e he, Expr.callsOf_of_not_reads r hr⟩

theorem Expr.calls?_of_not_reads (e : Option Expr) (h : Expr.reads? recordName e = false) :
    Expr.calls? e = 0 := by
  cases e with
  | none => exact rfl
  | some e => exact Expr.calls_of_not_reads e h

theorem JsxPart.calls_of_not_reads (p : JsxPart) (h : p.reads recordName = false) : p.calls = 0 := by
  match p with
  | .attribute n none | .text v => exact rfl
  | .attribute n (some v) => exact JsxPart.calls_of_not_reads v h
  | .spread e | .child e => exact Expr.calls_of_not_reads e h
  | .container e => exact Expr.calls?_of_not_reads e h

theorem JsxPart.callsOf_of_not_reads (ps : List JsxPart) (h : JsxPart.anyReads recordName ps = false) :
    JsxPart.callsOf ps = 0 := by
  cases ps with
  | nil => exact rfl
  | cons p r =>
    obtain ⟨hp, hr⟩ := Bool.or_eq_false_iff.1 h
    exact add_eq_zero.2 ⟨JsxPart.calls_of_not_reads p hp, JsxPart.callsOf_of_not_reads r hr⟩

theorem Property.calls_of_not_reads (p : Property) (h : p.reads recordName = false) :
    p.calls = 0 := by
  cases p with
  | shorthand n e => exact Expr.calls?_of_not_reads e h
  | keyValue k e =>
    obtain ⟨hk, he⟩ := Bool.or_eq_false_iff.1 h
    exact add_eq_zero.2 ⟨Key.calls_of_not_reads k hk, Expr.calls_of_not_reads e he⟩
  | method k f =>
    obtain ⟨hk, hf⟩ := Bool.or_eq_false_iff.1 h
    exact add_eq_zero.2 ⟨Key.calls_of_not_reads k hk, Function.calls_of_not_reads f hf⟩
  | getter p k b =>
    obtain ⟨hk, hb⟩ := Bool.or_eq_false_iff.1 h
    exact add_eq_zero.2 ⟨Key.calls_of_not_reads k hk, Block.calls_of_not_reads b hb⟩
  | setter p k q b =>
    obtain ⟨hkq, hb⟩ := Bool.or_eq_false_iff.1 h
    obtain ⟨hk, hq⟩ := Bool.or_eq_false_iff.1 hkq
    exact add_eq_zero.2 ⟨add_eq_zero.2 ⟨Key.calls_of_not_reads k hk, Pat.calls_of_not_reads q hq⟩,
      Block.calls_of_not_reads b hb⟩
  | spread p e => exact Expr.calls_of_not_reads e h

theorem Property.callsOf_of_not_reads (ps : List Property)
    (h : Property.anyReads recordName ps = false) : Property.callsOf ps = 0 := by
  cases ps with
  | nil => exact rfl
  | cons p r =>
    obtain ⟨hp, hr⟩ := Bool.or_eq_false_iff.1 h
    exact add_eq_zero.2 ⟨Property.calls_of_not_reads p hp, Property.callsOf_of_not_reads r hr⟩

theorem Key.calls_of_not_reads (k : Key) (h : k.reads recordName = false) : k.calls = 0 := by
  cases k with
  | computed p e => exact Expr.calls_of_not_reads e h
  | name | literal => exact rfl

theorem Pat.calls_of_not_reads (q : Pat) (h : q.reads recordName = false) : q.calls = 0 := by
  cases q with
  | ident | elision => exact rfl
  | array p items => exact Pat.callsOf_of_not_reads items h
  | object p members => exact PatProperty.callsOf_of_not_reads members h
  | rest p q => exact Pat.calls_of_not_reads q h
  | withDefault p q e =>
    obtain ⟨hq, he⟩ := Bool.or_eq_false_iff.1 h
    exact add_eq_zero.2 ⟨Pat.calls_of_not_reads q hq, Expr.calls_of_not_reads e he⟩
  | expr e => exact Expr.calls_of_not_reads e h

theorem Pat.callsOf_of_not_reads (qs : List Pat) (h : Pat.anyReads recordName qs = false) :
    Pat.callsOf qs = 0 := by
  cases qs with
  | nil => exact rfl
  | cons q r =>
    obtain ⟨hq, hr⟩ := Bool.or_eq_false_iff.1 h
    exact add_eq_zero.2 ⟨Pat.calls_of_not_reads q hq, Pat.callsOf_of_not_reads r hr⟩

theorem Pat.calls?_of_not_reads (q : Option Pat) (h : Pat.reads? recordName q = false) :
    Pat.calls? q = 0 := by
  cases q with
  | none => exact rfl
  | some q => exact Pat.calls_of_not_reads q h

theorem PatProperty.calls_of_not_reads (p : PatProperty) (h : p.reads recordName = false) :
    p.calls = 0 := by
  cases p with
  | keyValue k q =>
    obtain ⟨hk, hq⟩ := Bool.or_eq_false_iff.1 h
    exact add_eq_zero.2 ⟨Key.calls_of_not_reads k hk, Pat.calls_of_not_reads q hq⟩
  | shorthand p n e => exact Expr.calls?_of_not_reads e h
  | rest p q => exact Pat.calls_of_not_reads q h

theorem PatProperty.callsOf_of_not_reads (ps : List PatProperty)
    (h : PatProperty.anyReads recordName ps = false) : PatProperty.callsOf ps = 0 := by
  cases ps with
  | nil => exact rfl
  | cons p r =>
    obtain ⟨hp, hr⟩ := Bool.or_eq_false_iff.1 h
    exact add_eq_zero.2 ⟨PatProperty.calls_of_not_reads p hp, PatProperty.callsOf_of_not_reads r hr⟩

theorem Function.calls_of_not_reads (f : Function) (h : f.reads recordName = false) :
    f.calls = 0 := by
  cases f with
  | mk p a g ds ps b =>
    obtain ⟨hdps, hb⟩ := Bool.or_eq_false_iff.1 h
    obtain ⟨hds, hps⟩ := Bool.or_eq_false_iff.1 hdps
    exact add_eq_zero.2 ⟨add_eq_zero.2 ⟨Expr.callsOf_of_not_reads ds hds,
      Param.callsOf_of_not_reads ps hps⟩, Block.calls?_of_not_reads b hb⟩

theorem Param.calls_of_not_reads (p : Param) (h : p.reads recordName = false) : p.calls = 0 := by
  cases p with
  | mk p ds i q =>
    obtain ⟨hds, hq⟩ := Bool.or_eq_false_iff.1 h
    exact add_eq_zero.2 ⟨Expr.callsOf_of_not_reads ds hds, Pat.calls_of_not_reads q hq⟩

theorem Param.callsOf_of_not_reads (ps : List Param) (h : Param.anyReads recordName ps = false) :
    Param.callsOf ps = 0 := by
  cases ps with
  | nil => exact rfl
  | cons p r =>
    obtain ⟨hp, hr⟩ := Bool.or_eq_false_iff.1 h
    exact add_eq_zero.2 ⟨Param.calls_of_not_reads p hp, Param.callsOf_of_not_reads r hr⟩

theorem ArrowBody.calls_of_not_reads (b : ArrowBody) (h : b.reads recordName = false) :
    b.calls = 0 := by
  cases b with
  | block b => exact Block.calls_of_not_reads b h
  | expr e => exact Expr.calls_of_not_reads e h

theorem Block.calls_of_not_reads (b : Block) (h : b.reads recordName = false) : b.calls = 0 := by
  cases b with
  | mk p stmts => exact Stmt.callsOf_of_not_reads stmts h

theorem Block.calls?_of_not_reads (b : Option Block) (h : Block.reads? recordName b = false) :
    Block.calls? b = 0 := by
  cases b with
  | none => exact rfl
  | some b => exact Block.calls_of_not_reads b h

theorem Class.calls_of_not_reads (c : Class) (h : c.reads recordName = false) : c.calls = 0 := by
  cases c with
  | mk p ds members parent =>
    obtain ⟨hdm, hparent⟩ := Bool.or_eq_false_iff.1 h
    obtain ⟨hds, hmembers⟩ := Bool.or_eq_false_iff.1 hdm
    exact add_eq_zero.2 ⟨add_eq_zero.2 ⟨Expr.callsOf_of_not_reads ds hds,
      ClassMember.callsOf_of_not_reads members hmembers⟩, Expr.calls?_of_not_reads parent hparent⟩

theorem ClassMember.calls_of_not_reads (m : ClassMember) (h : m.reads recordName = false) :
    m.calls = 0 := by
  cases m with
  | ctor p k ps b =>
    obtain ⟨hps, hb⟩ := Bool.or_eq_false_iff.1 h
    exact add_eq_zero.2 ⟨Param.callsOf_of_not_reads ps hps, Block.calls?_of_not_reads b hb⟩
  | method p k kind st e f =>
    obtain ⟨hk, hf⟩ := Bool.or_eq_false_iff.1 h
    exact add_eq_zero.2 ⟨Key.calls_of_not_reads k hk, Function.calls_of_not_reads f hf⟩
  | property p k st e a v ds =>
    obtain ⟨hkv, hds⟩ := Bool.or_eq_false_iff.1 h
    obtain ⟨hk, hv⟩ := Bool.or_eq_false_iff.1 hkv
    exact add_eq_zero.2 ⟨add_eq_zero.2 ⟨Key.calls_of_not_reads k hk, Expr.calls?_of_not_reads v hv⟩,
      Expr.callsOf_of_not_reads ds hds⟩
  | staticBlock p b => exact Block.calls_of_not_reads b h
  | empty p => exact rfl

theorem ClassMember.callsOf_of_not_reads (ms : List ClassMember)
    (h : ClassMember.anyReads recordName ms = false) : ClassMember.callsOf ms = 0 := by
  cases ms with
  | nil => exact rfl
  | cons m r =>
    obtain ⟨hm, hr⟩ := Bool.or_eq_false_iff.1 h
    exact add_eq_zero.2 ⟨ClassMember.calls_of_not_reads m hm, ClassMember.callsOf_of_not_reads r hr⟩

theorem Stmt.calls_of_not_reads (st : Stmt) (h : st.reads recordName = false) : st.calls = 0 := by
  cases st with
  | block b => exact Block.calls_of_not_reads b h
  | withObject p e s | whileLoop p e s | doWhileLoop p e s =>
    obtain ⟨he, hs⟩ := Bool.or_eq_false_iff.1 h
    exact add_eq_zero.2 ⟨Expr.calls_of_not_reads e he, Stmt.calls_of_not_reads s hs⟩
  | returnStmt p e => exact Expr.calls?_of_not_reads e h
  | labeled p l s | exportDecl p s => exact Stmt.calls_of_not_reads s h
  | ifElse p e yes no =>
    obtain ⟨hey, hno⟩ := Bool.or_eq_false_iff.1 h
    obtain ⟨he, hyes⟩ := Bool.or_eq_false_iff.1 hey
    exact add_eq_zero.2 ⟨add_eq_zero.2 ⟨Expr.calls_of_not_reads e he,
      Stmt.calls_of_not_reads yes hyes⟩, Stmt.calls?_of_not_reads no hno⟩
  | switchOn p e cases =>
    obtain ⟨he, hcases⟩ := Bool.or_eq_false_iff.1 h
    exact add_eq_zero.2 ⟨Expr.calls_of_not_reads e he, SwitchCase.callsOf_of_not_reads cases hcases⟩
  | throwStmt p e | expr p e | exportDefault p e => exact Expr.calls_of_not_reads e h
  | tryStmt p b c f =>
    obtain ⟨hbc, hf⟩ := Bool.or_eq_false_iff.1 h
    obtain ⟨hb, hc⟩ := Bool.or_eq_false_iff.1 hbc
    exact add_eq_zero.2 ⟨add_eq_zero.2 ⟨Block.calls_of_not_reads b hb,
      Catch.calls?_of_not_reads c hc⟩, Block.calls?_of_not_reads f hf⟩
  | forLoop p head test update s =>
    obtain ⟨hhtu, hs⟩ := Bool.or_eq_false_iff.1 h
    obtain ⟨hht, hupdate⟩ := Bool.or_eq_false_iff.1 hhtu
    obtain ⟨hhead, htest⟩ := Bool.or_eq_false_iff.1 hht
    exact add_eq_zero.2 ⟨add_eq_zero.2 ⟨add_eq_zero.2 ⟨LoopHead.calls_of_not_reads head hhead,
      Expr.calls?_of_not_reads test htest⟩, Expr.calls?_of_not_reads update hupdate⟩,
      Stmt.calls_of_not_reads s hs⟩
  | forIn p head e s | forOf p a head e s =>
    obtain ⟨hhe, hs⟩ := Bool.or_eq_false_iff.1 h
    obtain ⟨hhead, he⟩ := Bool.or_eq_false_iff.1 hhe
    exact add_eq_zero.2 ⟨add_eq_zero.2 ⟨LoopHead.calls_of_not_reads head hhead,
      Expr.calls_of_not_reads e he⟩, Stmt.calls_of_not_reads s hs⟩
  | varDecl d => exact VarDecl.calls_of_not_reads d h
  | func n f | exportDefaultFunc p n f => exact Function.calls_of_not_reads f h
  | classDecl n c | exportDefaultClass p n c => exact Class.calls_of_not_reads c h
  | empty | debugger | breakTo | continueTo | importNames | exportNames | exportAll | typed => exact rfl

theorem Stmt.calls?_of_not_reads (s : Option Stmt) (h : Stmt.reads? recordName s = false) :
    Stmt.calls? s = 0 := by
  cases s with
  | none => exact rfl
  | some s => exact Stmt.calls_of_not_reads s h

theorem Stmt.callsOf_of_not_reads (ss : List Stmt) (h : Stmt.anyReads recordName ss = false) :
    Stmt.callsOf ss = 0 := by
  cases ss with
  | nil => exact rfl
  | cons st r =>
    obtain ⟨hst, hr⟩ := Bool.or_eq_false_iff.1 h
    exact add_eq_zero.2 ⟨Stmt.calls_of_not_reads st hst, Stmt.callsOf_of_not_reads r hr⟩

theorem VarDecl.calls_of_not_reads (d : VarDecl) (h : d.reads recordName = false) : d.calls = 0 := by
  cases d with
  | mk p k d items => exact Declarator.callsOf_of_not_reads items h

theorem Declarator.calls_of_not_reads (d : Declarator) (h : d.reads recordName = false) :
    d.calls = 0 := by
  cases d with
  | mk p q e =>
    obtain ⟨hq, he⟩ := Bool.or_eq_false_iff.1 h
    exact add_eq_zero.2 ⟨Pat.calls_of_not_reads q hq, Expr.calls?_of_not_reads e he⟩

theorem Declarator.callsOf_of_not_reads (ds : List Declarator)
    (h : Declarator.anyReads recordName ds = false) : Declarator.callsOf ds = 0 := by
  cases ds with
  | nil => exact rfl
  | cons d r =>
    obtain ⟨hd, hr⟩ := Bool.or_eq_false_iff.1 h
    exact add_eq_zero.2 ⟨Declarator.calls_of_not_reads d hd, Declarator.callsOf_of_not_reads r hr⟩

theorem SwitchCase.calls_of_not_reads (c : SwitchCase) (h : c.reads recordName = false) :
    c.calls = 0 := by
  cases c with
  | mk p e stmts =>
    obtain ⟨he, hstmts⟩ := Bool.or_eq_false_iff.1 h
    exact add_eq_zero.2 ⟨Expr.calls?_of_not_reads e he, Stmt.callsOf_of_not_reads stmts hstmts⟩

theorem SwitchCase.callsOf_of_not_reads (cs : List SwitchCase)
    (h : SwitchCase.anyReads recordName cs = false) : SwitchCase.callsOf cs = 0 := by
  cases cs with
  | nil => exact rfl
  | cons c r =>
    obtain ⟨hc, hr⟩ := Bool.or_eq_false_iff.1 h
    exact add_eq_zero.2 ⟨SwitchCase.calls_of_not_reads c hc, SwitchCase.callsOf_of_not_reads r hr⟩

theorem Catch.calls_of_not_reads (c : Catch) (h : c.reads recordName = false) : c.calls = 0 := by
  cases c with
  | mk p q b =>
    obtain ⟨hq, hb⟩ := Bool.or_eq_false_iff.1 h
    exact add_eq_zero.2 ⟨Pat.calls?_of_not_reads q hq, Block.calls_of_not_reads b hb⟩

theorem Catch.calls?_of_not_reads (c : Option Catch) (h : Catch.reads? recordName c = false) :
    Catch.calls? c = 0 := by
  cases c with
  | none => exact rfl
  | some c => exact Catch.calls_of_not_reads c h

theorem LoopHead.calls_of_not_reads (head : LoopHead) (h : head.reads recordName = false) :
    head.calls = 0 := by
  cases head with
  | none => exact rfl
  | varDecl d => exact VarDecl.calls_of_not_reads d h
  | pat q => exact Pat.calls_of_not_reads q h
  | expr e => exact Expr.calls_of_not_reads e h

end

/-! ### Instrumented programs -/

/-- The calls of the recording function in an instrumented program are those that the reported sites stand
for, each as often as it is reported, if the program does not read that function itself; and what they tell
when they are read is what the sites say. -/
theorem Program.calls_instrument (t : Tracer) (p : Program) (h : p.reads recordName = false) :
    (p.instrument t).1.calls = ((p.instrument t).2 : Multiset ProbeSite).map (Probe.call t.file) ∧
      (p.instrument t).1.calls.map Expr.report? =
        ((p.instrument t).2 : Multiset ProbeSite).map fun s => some (s.report t.file) := by
  have hnone : p.calls = 0 := Stmt.callsOf_of_not_reads p.body h
  have hcalls : (p.instrument t).1.calls =
      ((p.instrument t).2 : Multiset ProbeSite).map (Probe.call t.file) := by
    have hkeeps : KeepsAll t id p.calls := by simp [hnone, KeepsAll]
    have hshows := p.shows_instrument t hkeeps
    rwa [Multiset.map_id, Multiset.map_id, hnone, add_zero] at hshows
  refine ⟨hcalls, ?_⟩
  rw [hcalls, Multiset.map_map]
  exact Multiset.map_congr rfl fun s _ => report?_call t.file s

/-- A function in a default of an arrow function and the same function again, which is read at the same
place: sites that are noted twice stand for two calls. -/
theorem Program.calls_instrument_nested :
    let at_ (n : Nat) : Place := some ⟨n, n + 1⟩
    let name (n : Nat) (text : String) : Ident := ⟨at_ n, text⟩
    let assigned : Stmt := .expr (at_ 4)
      (.assign (at_ 4) .set (.ident (name 4 "x")) (.ident (name 5 "y")))
    let f : Function := .mk (at_ 1) false false [] [.mk (at_ 2) [] false (.ident (name 2 "y"))]
      (some (.mk (at_ 3) [assigned]))
    let arrow : Expr := .arrow (at_ 6) false
      [.withDefault (at_ 7) (.ident (name 7 "z")) (.func none f)] (.expr (.ident (name 8 "z")))
    let p : Program := ⟨true, none, [.varDecl (.mk (at_ 9) .const false
      [.mk (at_ 9) (.ident (name 9 "g")) (some arrow)]), .func (name 10 "f") f]⟩
    let t : Tracer := ⟨"f.js", fun n => ⟨1, n⟩⟩
    let told : List Report :=
      [⟨⟨1, 1⟩, ["y"], false, "f.js"⟩, ⟨⟨1, 4⟩, ["z", "y"], false, "f.js"⟩,
        ⟨⟨1, 6⟩, ["z"], true, "f.js"⟩, ⟨⟨1, 9⟩, ["g"], false, "f.js"⟩,
        ⟨⟨1, 1⟩, ["y"], false, "f.js"⟩, ⟨⟨1, 4⟩, ["g", "y"], false, "f.js"⟩]
    p.reads recordName = false ∧ (p.instrument t).2.map (ProbeSite.report t.file) = told ∧
      (p.instrument t).1.calls.map Expr.report? = (told : Multiset Report).map some := by
  intro at_ name assigned f arrow p t told
  have h : p.reads recordName = false := by decide +kernel
  have hsites : (p.instrument t).2.map (ProbeSite.report t.file) = told := by decide +kernel
  refine ⟨h, hsites, (Program.calls_instrument t p h).2.trans ?_⟩
  rw [← hsites, ← Multiset.map_coe, Multiset.map_map]
  rfl

end StepTrace.Script
