import StepTrace.Proofs.Script.Execution

/-!
A statement and its normal form do the same. A block that is put around a statement declares nothing that the
place of the statement does not declare, and no jump ends at it; what jumps to a loop by its label needs the
loop to be the body of the label, and it stays there.
-/
namespace StepTrace.Script

open Behaviour

variable {I : Interpretation}

namespace Behaviour

variable {S V : Type}

theorem followedBy_done (r : Behaviour S V) : r.followedBy done = r := by
  funext s c s'
  refine propext ⟨?_, fun h => ?_⟩
  · rintro (⟨-, h⟩ | ⟨t, h, rfl, rfl⟩)
    · exact h
    · exact h
  · cases c with
    | normal => exact Or.inr ⟨s', h, rfl, rfl⟩
    | _ => exact Or.inl ⟨nofun, h⟩

end Behaviour

/-! ### Blocks around statements -/

theorem runs_block_nil (p : Place) : (Block.mk p []).runs I = done := I.within_block_nil done

theorem runs_block_singleton (p : Place) (st : Stmt) :
    (Block.mk p [st]).runs I = I.inBody st (st.runs I []) :=
  congrArg (I.inBody st) (followedBy_done _)

/-- What declares nothing is in no scope of its own. -/
theorem inBody_of_not_isLexical {st : Stmt} (h : st.isLexical = false)
    (r : Behaviour I.State I.Value) : I.inBody st r = r := by
  have hnone : Stmt.lexicals [st] = [] := by simp [Stmt.lexicals, h]
  rw [Interpretation.inBody, hnone]
  exact I.within_block_nil r

/-- A body does the same as a block. -/
theorem inBody_asBlock (st : Stmt) :
    I.inBody st.asBlock (st.asBlock.runs I []) = I.inBody st (st.runs I []) := by
  have hblock : ∀ p, I.inBody (.block (.mk p [st])) ((Stmt.block (.mk p [st])).runs I []) =
      I.inBody st (st.runs I []) := fun p =>
    (inBody_of_not_isLexical rfl _).trans (runs_block_singleton p st)
  cases st with
  | block b => rfl
  | empty p =>
    have hempty : I.inBody (.empty p) done = done := inBody_of_not_isLexical rfl done
    exact (inBody_of_not_isLexical rfl _).trans ((runs_block_nil p).trans hempty.symm)
  | _ => exact hblock _

theorem inBody_asBranch (st : Stmt) :
    I.inBody st.asBranch (st.asBranch.runs I []) = I.inBody st (st.runs I []) := by
  have hbranch : st.asBranch = st ∨ st.asBranch = st.asBlock := by
    cases st with
    | ifElse => exact Or.inl rfl
    | _ => exact Or.inr rfl
  rcases hbranch with h | h <;> rw [h]
  exact inBody_asBlock st

/-- The body of a label does the same as what is put in its place: a loop hears of the label, and nothing else
does. -/
theorem runs_asLabelBody (st : Stmt) (labels : List String) :
    st.asLabelBody.runs I labels = st.runs I labels := by
  have hother : ∀ p, st.isLexical = false → (Block.mk p [st]).runs I = st.runs I [] := fun p h =>
    (runs_block_singleton p st).trans (inBody_of_not_isLexical h _)
  match st with
  | .labeled .. | .forLoop .. | .forIn .. | .forOf .. | .whileLoop .. | .doWhileLoop .. | .varDecl _
  | .func .. | .classDecl .. | .block _ => rfl
  | .empty p => exact runs_block_nil p
  | .returnStmt _ none | .returnStmt _ (some _) | .debugger _ | .withObject .. | .breakTo .. | .continueTo ..
  | .ifElse .. | .switchOn .. | .throwStmt .. | .tryStmt .. | .expr .. | .importNames ..
  | .exportDecl .. | .exportNames .. | .exportAll .. | .exportDefault .. | .exportDefaultFunc ..
  | .exportDefaultClass .. | .typed _ => exact hother _ rfl

/-! ### Normal forms of declarations -/

theorem VarDecl.kind_normal (d : VarDecl) : d.normal.kind = d.kind := by
  cases d
  rfl

theorem Stmt.isLexical_normal (st : Stmt) : st.normal.isLexical = st.isLexical := by
  match st with
  | .varDecl d => exact congrArg (· != VarKind.var) d.kind_normal
  | .ifElse _ _ _ none | .ifElse _ _ _ (some _) | .returnStmt _ none | .returnStmt _ (some _)
  | .tryStmt _ _ none none | .tryStmt _ _ (some _) none | .tryStmt _ _ none (some _)
  | .tryStmt _ _ (some _) (some _) => rfl
  | .block _ | .empty _ | .debugger _ | .withObject .. | .labeled .. | .breakTo .. | .continueTo ..
  | .switchOn .. | .throwStmt .. | .whileLoop .. | .doWhileLoop .. | .forLoop .. | .forIn .. | .forOf ..
  | .func .. | .classDecl .. | .expr .. | .importNames .. | .exportDecl .. | .exportNames ..
  | .exportAll .. | .exportDefault .. | .exportDefaultFunc .. | .exportDefaultClass .. | .typed _ => rfl

/-- The normal form of a declaration differs from it in the bodies of functions only. -/
theorem Stmt.mapBodies_of_isLexical {st : Stmt} (h : st.isLexical = true) :
    st.mapBodies Block.normal = st.normal := by
  cases st with
  | varDecl d => exact congrArg Stmt.varDecl d.mapBodies_normal
  | func n f => exact congrArg (Stmt.func n) f.mapBodies_normal
  | classDecl n c => exact congrArg (Stmt.classDecl n) c.mapBodies_normal
  | _ => cases h

theorem Stmt.lexicals_normals (ss : List Stmt) :
    Stmt.lexicals (Stmt.normals ss) = (Stmt.lexicals ss).map (Stmt.mapBodies Block.normal) := by
  induction ss with
  | nil => rfl
  | cons st r ih =>
    cases h : st.isLexical with
    | false => simpa [Stmt.lexicals, Stmt.normals, st.isLexical_normal, h] using ih
    | true =>
      simpa [Stmt.lexicals, Stmt.normals, st.isLexical_normal, h, Stmt.mapBodies_of_isLexical h] using ih

/-! ### What an interpretation makes of normal forms -/

namespace Interpretation.IgnoresForm

variable (hI : I.IgnoresForm)

include hI

theorem eval_normal (e : Expr) : I.eval e.normal = I.eval e := by
  rw [← e.mapBodies_normal]
  exact hI.eval e

theorem evaluated_normal? (e : Option Expr) : I.evaluated (Expr.normal? e) = I.evaluated e := by
  cases e with
  | none => rfl
  | some e => simp only [Expr.normal?, Interpretation.evaluated, hI.eval_normal]

theorem test_normal? (e : Option Expr) : I.test (Expr.normal? e) = I.test e := by
  cases e with
  | none => rfl
  | some e => simp only [Expr.normal?, Interpretation.test, hI.eval_normal]

theorem declared_normal {d d' : Stmt} (h : d.mapBodies Block.normal = d') : I.declared d' = I.declared d :=
  h ▸ congrArg (Effect.andThen · _) (hI.declare d)

theorem bind_head (h : LoopHead) : I.bind (.head h.normal) = I.bind (.head h) := by
  rw [← h.mapBodies_normal]
  exact hI.bind (.head h)

theorem bind_param (q : Pat) : I.bind (.param (some q.normal)) = I.bind (.param (some q)) := by
  rw [← q.mapBodies_normal]
  exact hI.bind (.param (some q))

theorem renew_normal (h : LoopHead) : I.renew h.normal = I.renew h := by
  rw [← h.mapBodies_normal]
  exact hI.renew h

theorem within_head (h : LoopHead) : I.within (.target (.head h.normal)) = I.within (.target (.head h)) := by
  rw [← h.mapBodies_normal]
  exact hI.within (.target (.head h))

theorem within_param (q : Pat) :
    I.within (.target (.param (some q.normal))) = I.within (.target (.param (some q))) := by
  rw [← q.mapBodies_normal]
  exact hI.within (.target (.param (some q)))

theorem within_normals (ss : List Stmt) :
    I.within (.block (Stmt.lexicals (Stmt.normals ss))) = I.within (.block (Stmt.lexicals ss)) := by
  rw [Stmt.lexicals_normals]
  exact hI.within (.block (Stmt.lexicals ss))

theorem inBody_normal (st : Stmt) (r : Behaviour I.State I.Value) : I.inBody st.normal r = I.inBody st r :=
  congrFun (hI.within_normals [st]) r

theorem begin_normal (h : LoopHead) : I.begin h.normal = I.begin h := by
  cases h with
  | none | pat => rfl
  | varDecl d => exact hI.declared_normal (congrArg Stmt.varDecl d.mapBodies_normal)
  | expr e => exact hI.evaluated_normal? (some e)

theorem each_normal (labels : List String) (kind : Iteration) (h : LoopHead) (e : Expr)
    (r : Behaviour I.State I.Value) : I.each labels kind h.normal e.normal r = I.each labels kind h e r := by
  simp only [Interpretation.each, hI.eval_normal, hI.bind_head, hI.within_head]

theorem matching_normals (v : I.Value) (cases : List SwitchCase) :
    I.matching v (SwitchCase.normals cases) = I.matching v cases := by
  induction cases with
  | nil => rfl
  | cons c r ih =>
    match c with
    | .mk p none ss => exact congrArg (Effect.bind · _) ih
    | .mk p (some e) ss =>
      simp only [SwitchCase.normals, SwitchCase.normal, Interpretation.matching, hI.eval_normal, ih]

theorem picks_normals (v : I.Value) (cases : List SwitchCase) :
    I.picks v (SwitchCase.normals cases) = I.picks v cases := by
  have hdefault : (SwitchCase.normals cases).findIdx? SwitchCase.isDefault =
      cases.findIdx? SwitchCase.isDefault := by
    induction cases with
    | nil => rfl
    | cons c r ih =>
      have hc : c.normal.isDefault = c.isDefault := by
        match c with
        | .mk _ none _ | .mk _ (some _) _ => rfl
      simp only [SwitchCase.normals, List.findIdx?_cons, hc, ih]
  simp only [Interpretation.picks, hI.matching_normals, hdefault]

theorem within_cases (cases : List SwitchCase) :
    I.within (.block ((SwitchCase.normals cases).flatMap fun c => Stmt.lexicals c.body)) =
      I.within (.block (cases.flatMap fun c => Stmt.lexicals c.body)) := by
  have hcases : (SwitchCase.normals cases).flatMap (fun c => Stmt.lexicals c.body) =
      (cases.flatMap fun c => Stmt.lexicals c.body).map (Stmt.mapBodies Block.normal) := by
    induction cases with
    | nil => rfl
    | cons c r ih =>
      have hbody : Stmt.lexicals c.normal.body =
          (Stmt.lexicals c.body).map (Stmt.mapBodies Block.normal) := by
        match c with
        | .mk p none ss | .mk p (some e) ss => exact Stmt.lexicals_normals ss
      simp only [SwitchCase.normals, List.flatMap_cons, List.map_append, hbody, ih]
  rw [hcases]
  exact hI.within (.block _)

/-- In the place of a body the block around a normal form does what the statement does. -/
theorem inBody_normal_asBlock {st : Stmt} (h : st.normal.runs I [] = st.runs I []) :
    I.inBody st.normal.asBlock (st.normal.asBlock.runs I []) = I.inBody st (st.runs I []) := by
  rw [inBody_asBlock, hI.inBody_normal, h]

theorem inBody_normal_asBranch {st : Stmt} (h : st.normal.runs I [] = st.runs I []) :
    I.inBody st.normal.asBranch (st.normal.asBranch.runs I []) = I.inBody st (st.runs I []) := by
  rw [inBody_asBranch, hI.inBody_normal, h]

end Interpretation.IgnoresForm

/-! ### Statements and their normal forms -/

mutual

/-- A statement with labels and its normal form do the same. -/
theorem Stmt.runs_normal (hI : I.IgnoresForm) (st : Stmt) (labels : List String) :
    st.normal.runs I labels = st.runs I labels := by
  match st with
  | .block b => exact Block.runs_normal hI b
  | .empty _ | .debugger _ | .breakTo .. | .continueTo .. | .returnStmt _ none | .importNames ..
  | .exportNames .. | .exportAll .. | .typed _ => rfl
  | .withObject p e s =>
    have hs := hI.inBody_normal_asBlock (Stmt.runs_normal hI s [])
    exact congr(Effect.andThen $(hI.eval_normal e) fun v => I.within (.object v) $hs)
  | .returnStmt p (some e) =>
    exact congr(Effect.andThen $(hI.eval_normal e) fun v => ending (.returns v))
  | .throwStmt p e => exact congr(Effect.andThen $(hI.eval_normal e) fun v => ending (.throws v))
  | .labeled p l s =>
    have hs := (runs_asLabelBody s.normal _).trans (Stmt.runs_normal hI s (l.text :: labels))
    exact congr(Behaviour.absorbing _ $hs)
  | .ifElse p e yes none =>
    have hyes := hI.inBody_normal_asBlock (Stmt.runs_normal hI yes [])
    exact congr(Effect.andThen $(hI.eval_normal e) fun v => if I.isTrue v then $hyes else done)
  | .ifElse p e yes (some no) =>
    have hyes := hI.inBody_normal_asBlock (Stmt.runs_normal hI yes [])
    have hno := hI.inBody_normal_asBranch (Stmt.runs_normal hI no [])
    exact congr(Effect.andThen $(hI.eval_normal e) fun v => if I.isTrue v then $hyes else $hno)
  | .switchOn p e cases =>
    have hcases := SwitchCase.runsFrom_normals hI cases
    exact congr(Effect.andThen $(hI.eval_normal e) fun v => breakable ($(hI.within_cases cases)
      (Effect.andThen $(hI.picks_normals v cases) fun n => $hcases n)))
  | .tryStmt p b none none =>
    exact congr(finallyDo (catching $(Block.runs_normal hI b) (Catch.runs? I none)) done)
  | .tryStmt p b (some c) none =>
    exact congr(finallyDo (catching $(Block.runs_normal hI b) $(Catch.runs_normal hI c)) done)
  | .tryStmt p b none (some f) =>
    exact congr(finallyDo (catching $(Block.runs_normal hI b) (Catch.runs? I none))
      $(Block.runs_normal hI f))
  | .tryStmt p b (some c) (some f) =>
    exact congr(finallyDo (catching $(Block.runs_normal hI b) $(Catch.runs_normal hI c))
      $(Block.runs_normal hI f))
  | .whileLoop p e s =>
    have hs := hI.inBody_normal_asBlock (Stmt.runs_normal hI s [])
    exact congr(breakable (Iterates $(hI.test_normal? (some e)) fun _ => absorbing _ $hs))
  | .doWhileLoop p e s =>
    have hs := hI.inBody_normal_asBlock (Stmt.runs_normal hI s [])
    exact congr(breakable (followedBy (absorbing _ $hs)
      (Iterates $(hI.test_normal? (some e)) fun _ => absorbing _ $hs)))
  | .forLoop p h test update s =>
    have hs := hI.inBody_normal_asBlock (Stmt.runs_normal hI s [])
    exact congr($(hI.within_head h) (followedBy $(hI.begin_normal h)
      (Effect.andThen $(hI.renew_normal h) fun _ => breakable (Iterates $(hI.test_normal? test) fun _ =>
        followedBy (absorbing _ $hs)
          (Effect.andThen $(hI.renew_normal h) fun _ => $(hI.evaluated_normal? update))))))
  | .forIn p h e s =>
    have hs := hI.inBody_normal_asBlock (Stmt.runs_normal hI s [])
    exact (hI.each_normal labels .keys h e _).trans congr(I.each labels .keys h e $hs)
  | .forOf p a h e s =>
    have hs := hI.inBody_normal_asBlock (Stmt.runs_normal hI s [])
    exact (hI.each_normal labels (.elements a) h e _).trans congr(I.each labels (.elements a) h e $hs)
  | .varDecl d => exact hI.declared_normal (congrArg Stmt.varDecl d.mapBodies_normal)
  | .func n f => exact hI.declared_normal (congrArg (Stmt.func n) f.mapBodies_normal)
  | .classDecl n c => exact hI.declared_normal (congrArg (Stmt.classDecl n) c.mapBodies_normal)
  | .expr p e => exact hI.evaluated_normal? (some e)
  | .exportDecl p d => exact Stmt.runs_normal hI d []
  | .exportDefault p e => exact hI.declared_normal (congrArg (Stmt.exportDefault p) e.mapBodies_normal)
  | .exportDefaultFunc p n f =>
    exact hI.declared_normal (congrArg (Stmt.exportDefaultFunc p n) f.mapBodies_normal)
  | .exportDefaultClass p n c =>
    exact hI.declared_normal (congrArg (Stmt.exportDefaultClass p n) c.mapBodies_normal)

theorem Stmt.runsAll_normals (hI : I.IgnoresForm) (ss : List Stmt) :
    Stmt.runsAll I (Stmt.normals ss) = Stmt.runsAll I ss := by
  cases ss with
  | nil => rfl
  | cons st r =>
    exact congr(Behaviour.followedBy $(Stmt.runs_normal hI st []) $(Stmt.runsAll_normals hI r))

theorem Block.runs_normal (hI : I.IgnoresForm) (b : Block) : b.normal.runs I = b.runs I := by
  cases b with
  | mk p ss => exact congr($(hI.within_normals ss) $(Stmt.runsAll_normals hI ss))

theorem SwitchCase.runs_normal (hI : I.IgnoresForm) (c : SwitchCase) : c.normal.runs I = c.runs I := by
  match c with
  | .mk p none ss | .mk p (some e) ss => exact Stmt.runsAll_normals hI ss

theorem SwitchCase.runsFrom_normals (hI : I.IgnoresForm) (cases : List SwitchCase) :
    SwitchCase.runsFrom I (SwitchCase.normals cases) = SwitchCase.runsFrom I cases := by
  cases cases with
  | nil => rfl
  | cons c r =>
    have hr := SwitchCase.runsFrom_normals hI r
    funext n
    match n with
    | none => rfl
    | some 0 => exact congr(Behaviour.followedBy $(SwitchCase.runs_normal hI c) ($hr (some 0)))
    | some (n + 1) => exact congrFun hr (some n)

theorem Catch.runs_normal (hI : I.IgnoresForm) (c : Catch) : c.normal.runs I = c.runs I := by
  match c with
  | .mk p none b =>
    exact congr(fun v => I.within (.target (.param none))
      (Effect.andThen (I.bind (.param none) v) fun _ => $(Block.runs_normal hI b)))
  | .mk p (some q) b =>
    exact congr(fun v => $(hI.within_param q)
      (Effect.andThen ($(hI.bind_param q) v) fun _ => $(Block.runs_normal hI b)))

end

/-- Whatever expressions and declarations do, as long as it is the same for the body of a function and for its
normal form: from every state a statement ends in the same states and in the same way as its normal form,
where it jumps and throws included. -/
theorem Stmt.runs_normal_iff (I : Interpretation) (hI : I.IgnoresForm) (st : Stmt) (labels : List String)
    (s s' : I.State) (c : Completion I.Value) :
    st.normal.runs I labels s c s' ↔ st.runs I labels s c s' := by
  rw [Stmt.runs_normal hI]

/-- An interpretation in which every expression but a function counts down and tells whether it could. -/
def countdown : Interpretation where
  State := Nat
  Value := Bool
  Cursor := Unit
  eval e := fun s r s' =>
    match e with
    | .func .. | .arrow .. | .classExpr .. => r = .ok true ∧ s' = s
    | _ => r = .ok (decide (0 < s)) ∧ s' = s - 1
  declare _ := .pure ()
  bind _ _ := .pure ()
  renew _ := .pure ()
  within _ r := r
  within_block_nil _ := rfl
  undefined := false
  isTrue v := v
  isSame v w := v == w
  iterate _ _ := .pure ()
  next _ := .pure none
  close _ c := .ending c

theorem countdown_ignoresForm : countdown.IgnoresForm where
  eval e := by cases e <;> rfl
  declare _ := rfl
  bind _ := rfl
  renew _ := rfl
  within _ := rfl

/-- A jump to the outer one of two loops, out of a condition that gets a block. With a block around the outer
loop the jump would not reach it. -/
theorem Stmt.runs_normal_nested :
    let name (text : String) : Ident := ⟨none, text⟩
    let read (text : String) : Expr := .ident (name text)
    let jump : Stmt := .continueTo none (some (name "outer"))
    let loop (text : String) (s : Stmt) : Stmt := .whileLoop none (read text) s
    let outer (s : Stmt) : Stmt := .labeled none (name "outer") s
    let block (s : Stmt) : Stmt := .block (.mk none [s])
    let inner : Stmt := loop "b" (.ifElse none (read "c") jump none)
    let st : Stmt := outer (loop "a" inner)
    countdown.IgnoresForm ∧
      st.normal = outer (loop "a" (block (loop "b" (block (.ifElse none (read "c") (block jump) none))))) ∧
      st.runs countdown [] (3 : Nat) .normal (0 : Nat) ∧
      st.normal.runs countdown [] (3 : Nat) .normal (0 : Nat) ∧
      (outer (block (loop "a" inner))).runs countdown [] (3 : Nat) (.continueTo (some "outer")) (0 : Nat) := by
  intro name read jump loop outer block inner st
  have htest : ∀ text (n : Nat), countdown.test (some (read text)) (n + 1 : Nat) (.ok (some ())) n :=
    fun _ _ => Or.inr ⟨true, _, ⟨rfl, rfl⟩, rfl, rfl⟩
  have hend : countdown.test (some (read "a")) (0 : Nat) (.ok none) (0 : Nat) :=
    Or.inr ⟨false, _, ⟨rfl, rfl⟩, rfl, rfl⟩
  have hjump : (Stmt.ifElse none (read "c") jump none).runs countdown [] (1 : Nat)
      (.continueTo (some "outer")) (0 : Nat) := Or.inr ⟨true, (0 : Nat), ⟨rfl, rfl⟩, rfl, rfl⟩
  have hinner : inner.runs countdown [] (2 : Nat) (.continueTo (some "outer")) (0 : Nat) :=
    Or.inl ⟨nofun, .leaves (htest "b" 1) (Or.inl ⟨List.not_mem_nil, hjump⟩) nofun⟩
  have hruns : st.runs countdown [] (3 : Nat) .normal (0 : Nat) :=
    Or.inl ⟨nofun, Or.inl ⟨nofun, .again (htest "a" 2)
      (Or.inr ⟨rfl, .continueTo (some "outer"), List.mem_cons_self, hinner⟩) (.stops hend)⟩⟩
  have hmissed : (loop "a" inner).runs countdown [] (3 : Nat) (.continueTo (some "outer")) (0 : Nat) :=
    Or.inl ⟨nofun, .leaves (htest "a" 2) (Or.inl ⟨List.not_mem_nil, hinner⟩) nofun⟩
  exact ⟨countdown_ignoresForm, rfl, hruns,
    (Stmt.runs_normal_iff countdown countdown_ignoresForm st [] _ _ .normal).2 hruns,
    Or.inl ⟨nofun, Or.inl ⟨nofun, hmissed⟩⟩⟩

end StepTrace.Script
