import StepTrace.Proofs.Script.Bare
import StepTrace.Script.NormalForm

/-!
Normal form needs no more parentheses: a program that can be written as it is can be so in normal form.
-/
namespace StepTrace.Script

/-! ### How the text of a part starts and ends -/

namespace Expr

theorem isNullish_normal (e : Expr) : e.normal.isNullish = e.isNullish := by
  cases e with
  | «yield» p d e => cases e <;> rfl
  | _ => rfl

theorem isChain_normal (e : Expr) : e.normal.isChain = e.isChain := by
  cases e with
  | «yield» p d e => cases e <;> rfl
  | _ => rfl

theorem isNewable_normal (e : Expr) : e.normal.isNewable = e.isNewable := by
  cases e with
  | member p l e n => exact isNewable_normal e
  | index p l e k => exact isNewable_normal e
  | tagged p e chunks parts => exact isNewable_normal e
  | «yield» p d e => cases e <;> rfl
  | _ => rfl

end Expr

mutual

theorem Expr.opening_normal (e : Expr) : e.normal.opening = e.opening := by
  cases e with
  | tagged p e chunks parts => exact Expr.opening_normal e
  | update p op isPrefix e =>
    cases isPrefix with
    | true => rfl
    | false => exact Expr.opening_normal e
  | binary p op e r => exact Expr.opening_normal e
  | cond p e a b => exact Expr.opening_normal e
  | member p l e n => exact Expr.opening_normal e
  | index p l e k => exact Expr.opening_normal e
  | call p l e args => exact Expr.opening_normal e
  | ascribed p how e => exact Expr.opening_normal e
  | assign p op q e => exact Pat.opening_normal q
  | sequence p items => exact Expr.openingOf_normals items
  | «yield» p d e => cases e <;> rfl
  | _ => rfl

theorem Expr.openingOf_normals (es : List Expr) :
    Expr.openingOf (Expr.normals es) = Expr.openingOf es := by
  cases es with
  | nil => rfl
  | cons e r => exact Expr.opening_normal e

theorem Pat.opening_normal (q : Pat) : q.normal.opening = q.opening := by
  cases q with
  | withDefault p q e => exact Pat.opening_normal q
  | expr e => exact Expr.opening_normal e
  | _ => rfl

end

theorem Stmt.isBare_asBlock {s : Stmt} (h : s.isBare = true) : s.asBlock.isBare = true := by
  cases s with
  | block b => exact h
  | empty p => rfl
  | _ => exact Bool.and_eq_true_iff.2 ⟨h, rfl⟩

theorem Stmt.isBare_asBranch {s : Stmt} (h : s.isBare = true) : s.asBranch.isBare = true := by
  cases s with
  | ifElse => exact h
  | _ => exact Stmt.isBare_asBlock h

theorem Stmt.isBare_asLabelBody {s : Stmt} (h : s.isBare = true) : s.asLabelBody.isBare = true := by
  cases s with
  | labeled | forLoop | forIn | forOf | whileLoop | doWhileLoop | varDecl | func | classDecl => exact h
  | _ => exact Stmt.isBare_asBlock h

theorem Stmt.isOpen_asBlock (s : Stmt) : s.asBlock.isOpen = false := by
  cases s <;> rfl

/-! ### The parts of a program -/

mutual

theorem Expr.isBare_normal (n : Nat) (e : Expr) (h : e.isBare n = true) : e.normal.isBare n = true := by
  cases e with
  | template p chunks parts => exact Expr.areBare_normals 0 parts h
  | tagged p tag chunks parts =>
    obtain ⟨htag, hparts⟩ := Bool.and_eq_true_iff.1 h
    obtain ⟨hchain, htag⟩ := Bool.and_eq_true_iff.1 htag
    rw [← Expr.isChain_normal tag] at hchain
    exact Bool.and_eq_true_iff.2 ⟨Bool.and_eq_true_iff.2 ⟨hchain, Expr.isBare_normal 18 tag htag⟩,
      Expr.areBare_normals 0 parts hparts⟩
  | array p items => exact Expr.areBare_normals 1 items h
  | object p members => exact Property.areBare_normals members h
  | func name f => exact Function.isBare_normal f h
  | classExpr name c => exact Class.isBare_normal c h
  | arrow p a ps b =>
    obtain ⟨hps, hb⟩ := Bool.and_eq_true_iff.1 h
    obtain ⟨hn, hps⟩ := Bool.and_eq_true_iff.1 hps
    exact Bool.and_eq_true_iff.2 ⟨Bool.and_eq_true_iff.2 ⟨hn, Pat.areBare_normals ps hps⟩,
      ArrowBody.isBare_normal b hb⟩
  | unary p op e | await p e =>
    obtain ⟨hn, he⟩ := Bool.and_eq_true_iff.1 h
    exact Bool.and_eq_true_iff.2 ⟨hn, Expr.isBare_normal 15 e he⟩
  | update p op pre e =>
    obtain ⟨hn, he⟩ := Bool.and_eq_true_iff.1 h
    exact Bool.and_eq_true_iff.2 ⟨hn, Expr.isBare_normal 17 e he⟩
  | binary p op l r =>
    obtain ⟨hl, hr⟩ := Bool.and_eq_true_iff.1 h
    obtain ⟨hn, hl⟩ := Bool.and_eq_true_iff.1 hl
    rw [← Expr.isNullish_normal l] at hl
    exact Bool.and_eq_true_iff.2 ⟨Bool.and_eq_true_iff.2 ⟨hn, Expr.isBare_normal _ l hl⟩,
      Expr.isBare_normal op.rightLevel r hr⟩
  | assign p op q e =>
    obtain ⟨hq, he⟩ := Bool.and_eq_true_iff.1 h
    obtain ⟨hn, hq⟩ := Bool.and_eq_true_iff.1 hq
    exact Bool.and_eq_true_iff.2 ⟨Bool.and_eq_true_iff.2 ⟨hn, Pat.isBare_normal q hq⟩,
      Expr.isBare_normal 1 e he⟩
  | cond p a b c =>
    obtain ⟨hab, hc⟩ := Bool.and_eq_true_iff.1 h
    obtain ⟨ha, hb⟩ := Bool.and_eq_true_iff.1 hab
    obtain ⟨hn, ha⟩ := Bool.and_eq_true_iff.1 ha
    exact Bool.and_eq_true_iff.2 ⟨Bool.and_eq_true_iff.2 ⟨Bool.and_eq_true_iff.2
      ⟨hn, Expr.isBare_normal 3 a ha⟩, Expr.isBare_normal 1 b hb⟩, Expr.isBare_normal 1 c hc⟩
  | member p l e name =>
    obtain ⟨hchain, he⟩ := Bool.and_eq_true_iff.1 h
    rw [← Expr.isChain_normal e] at hchain
    exact Bool.and_eq_true_iff.2 ⟨hchain, Expr.isBare_normal 18 e he⟩
  | index p l e k =>
    obtain ⟨he, hk⟩ := Bool.and_eq_true_iff.1 h
    obtain ⟨hchain, he⟩ := Bool.and_eq_true_iff.1 he
    rw [← Expr.isChain_normal e] at hchain
    exact Bool.and_eq_true_iff.2 ⟨Bool.and_eq_true_iff.2 ⟨hchain, Expr.isBare_normal 18 e he⟩,
      Expr.isBare_normal 0 k hk⟩
  | call p l e args =>
    obtain ⟨he, hargs⟩ := Bool.and_eq_true_iff.1 h
    obtain ⟨hchain, he⟩ := Bool.and_eq_true_iff.1 he
    rw [← Expr.isChain_normal e] at hchain
    exact Bool.and_eq_true_iff.2 ⟨Bool.and_eq_true_iff.2 ⟨hchain, Expr.isBare_normal 18 e he⟩,
      Expr.areBare_normals 1 args hargs⟩
  | construct p e hasArgs args =>
    obtain ⟨he, hargs⟩ := Bool.and_eq_true_iff.1 h
    obtain ⟨hnew, he⟩ := Bool.and_eq_true_iff.1 he
    obtain ⟨hn, hnew⟩ := Bool.and_eq_true_iff.1 hnew
    rw [← Expr.isNewable_normal e] at hnew
    exact Bool.and_eq_true_iff.2 ⟨Bool.and_eq_true_iff.2 ⟨Bool.and_eq_true_iff.2 ⟨hn, hnew⟩,
      Expr.isBare_normal _ e he⟩, Expr.areBare_normals 1 args hargs⟩
  | sequence p items =>
    obtain ⟨hn, hitems⟩ := Bool.and_eq_true_iff.1 h
    exact Bool.and_eq_true_iff.2 ⟨hn, Expr.areBare_normals 1 items hitems⟩
  | paren p e => exact Expr.isBare_normal 0 e h
  | «yield» p d e =>
    obtain ⟨hn, he⟩ := Bool.and_eq_true_iff.1 h
    cases e with
    | none => exact h
    | some e => exact Bool.and_eq_true_iff.2 ⟨hn, Expr.isBare_normal 1 e he⟩
  | spread p e =>
    obtain ⟨hn, he⟩ := Bool.and_eq_true_iff.1 h
    exact Bool.and_eq_true_iff.2 ⟨hn, Expr.isBare_normal 1 e he⟩
  | element p name c as_ cs =>
    obtain ⟨has, hcs⟩ := Bool.and_eq_true_iff.1 h
    exact Bool.and_eq_true_iff.2 ⟨JsxPart.areBare_normals as_ has, JsxPart.areBare_normals cs hcs⟩
  | ascribed => cases h
  | this | superRef | importRef | ident | literal | metaProperty | elision => exact h

theorem Expr.areBare_normals (n : Nat) (es : List Expr) (h : Expr.areBare n es = true) :
    Expr.areBare n (Expr.normals es) = true := by
  cases es with
  | nil => rfl
  | cons e r =>
    obtain ⟨he, hr⟩ := Bool.and_eq_true_iff.1 h
    exact Bool.and_eq_true_iff.2 ⟨Expr.isBare_normal n e he, Expr.areBare_normals n r hr⟩

theorem JsxPart.isBare_normal (p : JsxPart) (h : p.isBare = true) : p.normal.isBare = true := by
  match p with
  | .attribute name none | .text v | .container none => exact h
  | .attribute name (some v) => exact JsxPart.isBare_normal v h
  | .spread e => exact Expr.isBare_normal 1 e h
  | .container (some e) => exact Expr.isBare_normal 0 e h
  | .child e => exact Expr.isBare_normal 18 e h

theorem JsxPart.areBare_normals (ps : List JsxPart) (h : JsxPart.areBare ps = true) :
    JsxPart.areBare (JsxPart.normals ps) = true := by
  cases ps with
  | nil => rfl
  | cons p r =>
    obtain ⟨hp, hr⟩ := Bool.and_eq_true_iff.1 h
    exact Bool.and_eq_true_iff.2 ⟨JsxPart.isBare_normal p hp, JsxPart.areBare_normals r hr⟩

theorem Property.isBare_normal (p : Property) (h : p.isBare = true) : p.normal.isBare = true := by
  match p with
  | .shorthand name none => exact h
  | .shorthand name (some e) => exact Expr.isBare_normal 1 e h
  | .keyValue k e =>
    obtain ⟨hk, he⟩ := Bool.and_eq_true_iff.1 h
    exact Bool.and_eq_true_iff.2 ⟨Key.isBare_normal k hk, Expr.isBare_normal 1 e he⟩
  | .method k f =>
    obtain ⟨hk, hf⟩ := Bool.and_eq_true_iff.1 h
    exact Bool.and_eq_true_iff.2 ⟨Key.isBare_normal k hk, Function.isBare_normal f hf⟩
  | .getter p k b =>
    obtain ⟨hk, hb⟩ := Bool.and_eq_true_iff.1 h
    exact Bool.and_eq_true_iff.2 ⟨Key.isBare_normal k hk, Block.isBare_normal b hb⟩
  | .setter p k q b =>
    obtain ⟨hkq, hb⟩ := Bool.and_eq_true_iff.1 h
    obtain ⟨hk, hq⟩ := Bool.and_eq_true_iff.1 hkq
    exact Bool.and_eq_true_iff.2 ⟨Bool.and_eq_true_iff.2 ⟨Key.isBare_normal k hk,
      Pat.isBare_normal q hq⟩, Block.isBare_normal b hb⟩
  | .spread p e => exact Expr.isBare_normal 1 e h

theorem Property.areBare_normals (ps : List Property) (h : Property.areBare ps = true) :
    Property.areBare (Property.normals ps) = true := by
  cases ps with
  | nil => rfl
  | cons p r =>
    obtain ⟨hp, hr⟩ := Bool.and_eq_true_iff.1 h
    exact Bool.and_eq_true_iff.2 ⟨Property.isBare_normal p hp, Property.areBare_normals r hr⟩

theorem Key.isBare_normal (k : Key) (h : k.isBare = true) : k.normal.isBare = true := by
  cases k with
  | computed p e => exact Expr.isBare_normal 1 e h
  | name | literal => rfl

theorem Pat.isBare_normal (q : Pat) (h : q.isBare = true) : q.normal.isBare = true := by
  cases q with
  | ident | elision => rfl
  | array p items => exact Pat.areBare_normals items h
  | object p members => exact PatProperty.areBare_normals members h
  | rest p q => exact Pat.isBare_normal q h
  | withDefault p q e =>
    obtain ⟨hq, he⟩ := Bool.and_eq_true_iff.1 h
    exact Bool.and_eq_true_iff.2 ⟨Pat.isBare_normal q hq, Expr.isBare_normal 1 e he⟩
  | expr e => exact Expr.isBare_normal 17 e h

theorem Pat.areBare_normals (qs : List Pat) (h : Pat.areBare qs = true) :
    Pat.areBare (Pat.normals qs) = true := by
  cases qs with
  | nil => rfl
  | cons q r =>
    obtain ⟨hq, hr⟩ := Bool.and_eq_true_iff.1 h
    exact Bool.and_eq_true_iff.2 ⟨Pat.isBare_normal q hq, Pat.areBare_normals r hr⟩

theorem PatProperty.isBare_normal (p : PatProperty) (h : p.isBare = true) : p.normal.isBare = true := by
  match p with
  | .keyValue k q =>
    obtain ⟨hk, hq⟩ := Bool.and_eq_true_iff.1 h
    exact Bool.and_eq_true_iff.2 ⟨Key.isBare_normal k hk, Pat.isBare_normal q hq⟩
  | .shorthand p name none => rfl
  | .shorthand p name (some e) => exact Expr.isBare_normal 1 e h
  | .rest p q => exact Pat.isBare_normal q h

theorem PatProperty.areBare_normals (ps : List PatProperty) (h : PatProperty.areBare ps = true) :
    PatProperty.areBare (PatProperty.normals ps) = true := by
  cases ps with
  | nil => rfl
  | cons p r =>
    obtain ⟨hp, hr⟩ := Bool.and_eq_true_iff.1 h
    exact Bool.and_eq_true_iff.2 ⟨PatProperty.isBare_normal p hp, PatProperty.areBare_normals r hr⟩

theorem Function.isBare_normal (f : Function) (h : f.isBare = true) : f.normal.isBare = true := by
  match f with
  | .mk p a g ds ps b =>
    obtain ⟨hdps, hb⟩ := Bool.and_eq_true_iff.1 h
    obtain ⟨hds, hps⟩ := Bool.and_eq_true_iff.1 hdps
    have hds := Expr.areBare_normals 17 ds hds
    have hps := Param.areBare_normals ps hps
    cases b with
    | none => exact Bool.and_eq_true_iff.2 ⟨Bool.and_eq_true_iff.2 ⟨hds, hps⟩, rfl⟩
    | some b =>
      exact Bool.and_eq_true_iff.2 ⟨Bool.and_eq_true_iff.2 ⟨hds, hps⟩, Block.isBare_normal b hb⟩

theorem Param.isBare_normal (p : Param) (h : p.isBare = true) : p.normal.isBare = true := by
  match p with
  | .mk p ds i q =>
    obtain ⟨hds, hq⟩ := Bool.and_eq_true_iff.1 h
    exact Bool.and_eq_true_iff.2 ⟨Expr.areBare_normals 17 ds hds, Pat.isBare_normal q hq⟩

theorem Param.areBare_normals (ps : List Param) (h : Param.areBare ps = true) :
    Param.areBare (Param.normals ps) = true := by
  cases ps with
  | nil => rfl
  | cons p r =>
    obtain ⟨hp, hr⟩ := Bool.and_eq_true_iff.1 h
    exact Bool.and_eq_true_iff.2 ⟨Param.isBare_normal p hp, Param.areBare_normals r hr⟩

theorem ArrowBody.isBare_normal (b : ArrowBody) (h : b.isBare = true) : b.normal.isBare = true := by
  cases b with
  | block b => exact Block.isBare_normal b h
  | expr e =>
    obtain ⟨hopening, he⟩ := Bool.and_eq_true_iff.1 h
    rw [← Expr.opening_normal e] at hopening
    exact Bool.and_eq_true_iff.2 ⟨hopening, Expr.isBare_normal 1 e he⟩

theorem Block.isBare_normal (b : Block) (h : b.isBare = true) : b.normal.isBare = true := by
  cases b with
  | mk p ss => exact Stmt.areBare_normals ss h

theorem Class.isBare_normal (c : Class) (h : c.isBare = true) : c.normal.isBare = true := by
  match c with
  | .mk p ds members parent =>
    obtain ⟨hdm, hparent⟩ := Bool.and_eq_true_iff.1 h
    obtain ⟨hds, hmembers⟩ := Bool.and_eq_true_iff.1 hdm
    have hds := Expr.areBare_normals 17 ds hds
    have hmembers := ClassMember.areBare_normals members hmembers
    cases parent with
    | none => exact Bool.and_eq_true_iff.2 ⟨Bool.and_eq_true_iff.2 ⟨hds, hmembers⟩, rfl⟩
    | some e =>
      exact Bool.and_eq_true_iff.2 ⟨Bool.and_eq_true_iff.2 ⟨hds, hmembers⟩,
        Expr.isBare_normal 17 e hparent⟩

theorem ClassMember.isBare_normal (m : ClassMember) (h : m.isBare = true) : m.normal.isBare = true := by
  match m with
  | .ctor p k ps b =>
    obtain ⟨hkps, hb⟩ := Bool.and_eq_true_iff.1 h
    obtain ⟨hk, hps⟩ := Bool.and_eq_true_iff.1 hkps
    have hps := Param.areBare_normals ps hps
    cases b with
    | none => exact Bool.and_eq_true_iff.2 ⟨Bool.and_eq_true_iff.2 ⟨hk, hps⟩, rfl⟩
    | some b =>
      exact Bool.and_eq_true_iff.2 ⟨Bool.and_eq_true_iff.2 ⟨hk, hps⟩, Block.isBare_normal b hb⟩
  | .method p k kind s e f =>
    obtain ⟨hk, hf⟩ := Bool.and_eq_true_iff.1 h
    exact Bool.and_eq_true_iff.2 ⟨Key.isBare_normal k hk, Function.isBare_normal f hf⟩
  | .property p k s e a v ds =>
    obtain ⟨hkv, hds⟩ := Bool.and_eq_true_iff.1 h
    obtain ⟨hk, hv⟩ := Bool.and_eq_true_iff.1 hkv
    have hk := Key.isBare_normal k hk
    have hds := Expr.areBare_normals 17 ds hds
    cases v with
    | none => exact Bool.and_eq_true_iff.2 ⟨Bool.and_eq_true_iff.2 ⟨hk, rfl⟩, hds⟩
    | some v =>
      exact Bool.and_eq_true_iff.2 ⟨Bool.and_eq_true_iff.2 ⟨hk, Expr.isBare_normal 1 v hv⟩, hds⟩
  | .staticBlock p b => exact Block.isBare_normal b h
  | .empty p => rfl

theorem ClassMember.areBare_normals (ms : List ClassMember) (h : ClassMember.areBare ms = true) :
    ClassMember.areBare (ClassMember.normals ms) = true := by
  cases ms with
  | nil => rfl
  | cons m r =>
    obtain ⟨hm, hr⟩ := Bool.and_eq_true_iff.1 h
    exact Bool.and_eq_true_iff.2 ⟨ClassMember.isBare_normal m hm, ClassMember.areBare_normals r hr⟩

/-- Where an `else` follows, the first branch is a block now. -/
theorem Stmt.isBare_normal (s : Stmt) (h : s.isBare = true) : s.normal.isBare = true := by
  cases s with
  | block b => exact Block.isBare_normal b h
  | withObject p e s | whileLoop p e s | doWhileLoop p e s =>
    obtain ⟨he, hs⟩ := Bool.and_eq_true_iff.1 h
    have hs := Stmt.isBare_asBlock (Stmt.isBare_normal s hs)
    exact Bool.and_eq_true_iff.2 ⟨Expr.isBare_normal 0 e he, hs⟩
  | returnStmt p e =>
    cases e with
    | none => rfl
    | some e => exact Expr.isBare_normal 0 e h
  | labeled p l s => exact Stmt.isBare_asLabelBody (Stmt.isBare_normal s h)
  | ifElse p e yes no =>
    obtain ⟨hey, hno⟩ := Bool.and_eq_true_iff.1 h
    obtain ⟨hclosed, hyes⟩ := Bool.and_eq_true_iff.1 hey
    obtain ⟨-, he⟩ := Bool.and_eq_true_iff.1 hclosed
    have he := Expr.isBare_normal 0 e he
    have hyes := Stmt.isBare_asBlock (Stmt.isBare_normal yes hyes)
    cases no with
    | none =>
      exact Bool.and_eq_true_iff.2
        ⟨Bool.and_eq_true_iff.2 ⟨Bool.and_eq_true_iff.2 ⟨rfl, he⟩, hyes⟩, rfl⟩
    | some no =>
      have hclosed : (false || !yes.normal.asBlock.isOpen) = true := by
        rw [Stmt.isOpen_asBlock, Bool.false_or, Bool.not_false]
      have hno := Stmt.isBare_asBranch (Stmt.isBare_normal no hno)
      exact Bool.and_eq_true_iff.2
        ⟨Bool.and_eq_true_iff.2 ⟨Bool.and_eq_true_iff.2 ⟨hclosed, he⟩, hyes⟩, hno⟩
  | switchOn p e cases =>
    obtain ⟨he, hcases⟩ := Bool.and_eq_true_iff.1 h
    exact Bool.and_eq_true_iff.2 ⟨Expr.isBare_normal 0 e he, SwitchCase.areBare_normals cases hcases⟩
  | throwStmt p e => exact Expr.isBare_normal 0 e h
  | tryStmt p b c f =>
    obtain ⟨hbc, hf⟩ := Bool.and_eq_true_iff.1 h
    obtain ⟨hb, hc⟩ := Bool.and_eq_true_iff.1 hbc
    have hb := Block.isBare_normal b hb
    match c, f with
    | none, none => exact Bool.and_eq_true_iff.2 ⟨Bool.and_eq_true_iff.2 ⟨hb, rfl⟩, rfl⟩
    | some c, none =>
      have hc := Catch.isBare_normal c hc
      exact Bool.and_eq_true_iff.2 ⟨Bool.and_eq_true_iff.2 ⟨hb, hc⟩, rfl⟩
    | none, some f =>
      have hf := Block.isBare_normal f hf
      exact Bool.and_eq_true_iff.2 ⟨Bool.and_eq_true_iff.2 ⟨hb, rfl⟩, hf⟩
    | some c, some f =>
      have hc := Catch.isBare_normal c hc
      have hf := Block.isBare_normal f hf
      exact Bool.and_eq_true_iff.2 ⟨Bool.and_eq_true_iff.2 ⟨hb, hc⟩, hf⟩
  | forLoop p head test update s =>
    obtain ⟨hhtu, hs⟩ := Bool.and_eq_true_iff.1 h
    obtain ⟨hht, hupdate⟩ := Bool.and_eq_true_iff.1 hhtu
    obtain ⟨hhead, htest⟩ := Bool.and_eq_true_iff.1 hht
    exact Bool.and_eq_true_iff.2 ⟨Bool.and_eq_true_iff.2 ⟨Bool.and_eq_true_iff.2
      ⟨LoopHead.isBare_normal head hhead, Expr.isBare?_normal? 0 test htest⟩,
      Expr.isBare?_normal? 0 update hupdate⟩, Stmt.isBare_asBlock (Stmt.isBare_normal s hs)⟩
  | forIn p head e s =>
    obtain ⟨hhe, hs⟩ := Bool.and_eq_true_iff.1 h
    obtain ⟨hhead, he⟩ := Bool.and_eq_true_iff.1 hhe
    exact Bool.and_eq_true_iff.2 ⟨Bool.and_eq_true_iff.2 ⟨LoopHead.isBare_normal head hhead,
      Expr.isBare_normal 0 e he⟩, Stmt.isBare_asBlock (Stmt.isBare_normal s hs)⟩
  | forOf p a head e s =>
    obtain ⟨hhe, hs⟩ := Bool.and_eq_true_iff.1 h
    obtain ⟨hhead, he⟩ := Bool.and_eq_true_iff.1 hhe
    exact Bool.and_eq_true_iff.2 ⟨Bool.and_eq_true_iff.2 ⟨LoopHead.isBare_normal head hhead,
      Expr.isBare_normal 1 e he⟩, Stmt.isBare_asBlock (Stmt.isBare_normal s hs)⟩
  | varDecl d => exact VarDecl.isBare_normal d h
  | func n f | exportDefaultFunc p n f => exact Function.isBare_normal f h
  | classDecl n c | exportDefaultClass p n c => exact Class.isBare_normal c h
  | expr p e =>
    obtain ⟨hopening, he⟩ := Bool.and_eq_true_iff.1 h
    rw [← Expr.opening_normal e] at hopening
    exact Bool.and_eq_true_iff.2 ⟨hopening, Expr.isBare_normal 0 e he⟩
  | exportDefault p e =>
    obtain ⟨hopening, he⟩ := Bool.and_eq_true_iff.1 h
    rw [← Expr.opening_normal e] at hopening
    exact Bool.and_eq_true_iff.2 ⟨hopening, Expr.isBare_normal 1 e he⟩
  | exportDecl p s => exact Stmt.isBare_normal s h
  | typed => cases h
  | empty | debugger | breakTo | continueTo | importNames | exportNames | exportAll => rfl

theorem Expr.isBare?_normal? (n : Nat) (e : Option Expr) (h : Expr.isBare? n e = true) :
    Expr.isBare? n (Expr.normal? e) = true := by
  cases e with
  | none => rfl
  | some e => exact Expr.isBare_normal n e h

theorem Stmt.areBare_normals (ss : List Stmt) (h : Stmt.areBare ss = true) :
    Stmt.areBare (Stmt.normals ss) = true := by
  cases ss with
  | nil => rfl
  | cons s r =>
    obtain ⟨hs, hr⟩ := Bool.and_eq_true_iff.1 h
    exact Bool.and_eq_true_iff.2 ⟨Stmt.isBare_normal s hs, Stmt.areBare_normals r hr⟩

theorem VarDecl.isBare_normal (d : VarDecl) (h : d.isBare = true) : d.normal.isBare = true := by
  cases d with
  | mk p k d items => exact Declarator.areBare_normals items h

theorem Declarator.isBare_normal (d : Declarator) (h : d.isBare = true) : d.normal.isBare = true := by
  match d with
  | .mk p q none =>
    obtain ⟨hq, -⟩ := Bool.and_eq_true_iff.1 h
    exact Bool.and_eq_true_iff.2 ⟨Pat.isBare_normal q hq, rfl⟩
  | .mk p q (some e) =>
    obtain ⟨hq, he⟩ := Bool.and_eq_true_iff.1 h
    exact Bool.and_eq_true_iff.2 ⟨Pat.isBare_normal q hq, Expr.isBare_normal 1 e he⟩

theorem Declarator.areBare_normals (ds : List Declarator) (h : Declarator.areBare ds = true) :
    Declarator.areBare (Declarator.normals ds) = true := by
  cases ds with
  | nil => rfl
  | cons d r =>
    obtain ⟨hd, hr⟩ := Bool.and_eq_true_iff.1 h
    exact Bool.and_eq_true_iff.2 ⟨Declarator.isBare_normal d hd, Declarator.areBare_normals r hr⟩

theorem SwitchCase.isBare_normal (c : SwitchCase) (h : c.isBare = true) : c.normal.isBare = true := by
  match c with
  | .mk p none ss => exact Stmt.areBare_normals ss h
  | .mk p (some e) ss =>
    obtain ⟨he, hss⟩ := Bool.and_eq_true_iff.1 h
    exact Bool.and_eq_true_iff.2 ⟨Expr.isBare_normal 0 e he, Stmt.areBare_normals ss hss⟩

theorem SwitchCase.areBare_normals (cs : List SwitchCase) (h : SwitchCase.areBare cs = true) :
    SwitchCase.areBare (SwitchCase.normals cs) = true := by
  cases cs with
  | nil => rfl
  | cons c r =>
    obtain ⟨hc, hr⟩ := Bool.and_eq_true_iff.1 h
    exact Bool.and_eq_true_iff.2 ⟨SwitchCase.isBare_normal c hc, SwitchCase.areBare_normals r hr⟩

theorem Catch.isBare_normal (c : Catch) (h : c.isBare = true) : c.normal.isBare = true := by
  match c with
  | .mk p none b => exact Block.isBare_normal b h
  | .mk p (some q) b =>
    obtain ⟨hq, hb⟩ := Bool.and_eq_true_iff.1 h
    exact Bool.and_eq_true_iff.2 ⟨Pat.isBare_normal q hq, Block.isBare_normal b hb⟩

theorem LoopHead.isBare_normal (head : LoopHead) (h : head.isBare = true) :
    head.normal.isBare = true := by
  cases head with
  | none => rfl
  | varDecl d => exact VarDecl.isBare_normal d h
  | pat q => exact Pat.isBare_normal q h
  | expr e => exact Expr.isBare_normal 0 e h

end

theorem Program.isBare_normal {p : Program} (h : p.isBare = true) : p.normal.isBare = true :=
  Stmt.areBare_normals p.body h

end StepTrace.Script
