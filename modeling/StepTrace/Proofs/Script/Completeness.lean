import StepTrace.Proofs.Script.Coverage
import StepTrace.Proofs.Script.Noting

/-!
The names that the probes of a program read. After a step they read all that is declared before it in the scopes
around it, at every depth, but for what the body of a `do` loop declares by `var`: its condition is traversed
first. No probe reads all arguments, and none reads a name twice but where parameters bind a name twice.
-/
namespace StepTrace.Script

open Trace

/-! ### The same with probes -/

theorem Stmt.ownVars_instrument (t : Tracer) (st : Stmt) (s : Tracing) :
    (result (st.instrument t) s).ownVars = st.ownVars := by
  cases st with
  | varDecl d => exact (VarDecl.names_instrument t d s).1
  | exportDecl p d =>
    cases d with
    | varDecl d => exact (VarDecl.names_instrument t d s).1
    | _ => rfl
  | _ => rfl

/-- The probe after a statement, which has probes in it already. -/
theorem Stmt.notes_after_instrument (t : Tracer) (env : List Due) (st : Stmt) (s : Tracing) :
    Notes t (due st.listedVars ++ env) (st.step?.map fun span => ⟨span, st.leave env⟩).toList st.ownVars
      st.lexicalNames (after t (result (st.instrument t) s)) := by
  have hafter := notes_after t (due st.listedVars ++ env) (result (st.instrument t) s)
  rwa [Stmt.step?_instrument, Stmt.ownVars_instrument, Stmt.lexicalNames_instrument] at hafter

theorem Catch.arguments_not_mem_names (q : Option Pat) : argumentsName ∉ q.elim [] Pat.boundNames := by
  cases q with
  | none => exact List.not_mem_nil
  | some q => exact q.arguments_not_mem_boundNames

/-! ### What the parts of a program note -/

mutual

theorem Expr.notes_instrument (t : Tracer) (env : List Due) (e : Expr) :
    Notes t env (e.demands env) [] [] (e.instrument t) := by
  cases e with
  | template p chunks parts => exact (Expr.notes_instruments t env parts).map
  | tagged p tag chunks parts =>
    exact (Expr.notes_instrument t env tag).seq fun _ => (Expr.notes_instruments t env parts).map
  | array p items | sequence p items => exact (Expr.notes_instruments t env items).map
  | object p members => exact (Property.notes_instruments t env members).map
  | func name f => exact (Function.notes_instrument t env f).map
  | classExpr name c => exact (Class.notes_instrument t env c).map
  | arrow p a ps b =>
    have hnames := Pat.arguments_not_mem_boundNamesOf ps
    refine Notes.inFunction hnames (((Pat.notes_instruments t env ps).under _).seq fun _ => ?_)
    exact (ArrowBody.notes_instrument t _ p hnames b).map
  | unary p op e | await p e | paren p e | spread p e | ascribed p how e | member p l e name
  | update p op pre e => exact (Expr.notes_instrument t env e).map
  | binary p op l r =>
    exact (Expr.notes_instrument t env l).seq fun _ => (Expr.notes_instrument t env r).map
  | assign p op q e =>
    exact (Pat.notes_instrument t env q).seq fun _ => (Expr.notes_instrument t env e).map
  | cond p a b c =>
    refine (Expr.notes_instrument t env a).seq fun _ => ?_
    exact (Expr.notes_instrument t env b).seq fun _ => (Expr.notes_instrument t env c).map
  | index p l e k =>
    exact (Expr.notes_instrument t env e).seq fun _ => (Expr.notes_instrument t env k).map
  | call p l e args | construct p e hasArgs args =>
    exact (Expr.notes_instrument t env e).seq fun _ => (Expr.notes_instruments t env args).map
  | yield p d e => exact (Expr.notes_instrument? t env e).map
  | element p name c as_ cs =>
    exact (JsxPart.notes_instruments t env as_).seq fun _ => (JsxPart.notes_instruments t env cs).map
  | this | superRef | importRef | ident | literal | metaProperty | elision => exact .pure _

theorem Expr.notes_instruments (t : Tracer) (env : List Due) (es : List Expr) :
    Notes t env (Expr.demandsOf env es) [] [] (Expr.instruments t es) := by
  cases es with
  | nil => exact .pure _
  | cons e r =>
    exact (Expr.notes_instrument t env e).seq fun _ => (Expr.notes_instruments t env r).map

theorem Expr.notes_instrument? (t : Tracer) (env : List Due) (e : Option Expr) :
    Notes t env (Expr.demands? env e) [] [] (Expr.instrument? t e) := by
  cases e with
  | none => exact .pure _
  | some e => exact (Expr.notes_instrument t env e).map

theorem JsxPart.notes_instrument (t : Tracer) (env : List Due) (p : JsxPart) :
    Notes t env (p.demands env) [] [] (p.instrument t) := by
  cases p with
  | «attribute» name value =>
    cases value with
    | none => exact .pure _
    | some v => exact (JsxPart.notes_instrument t env v).map
  | text value => exact .pure _
  | spread e | child e => exact (Expr.notes_instrument t env e).map
  | container e => exact (Expr.notes_instrument? t env e).map

theorem JsxPart.notes_instruments (t : Tracer) (env : List Due) (ps : List JsxPart) :
    Notes t env (JsxPart.demandsOf env ps) [] [] (JsxPart.instruments t ps) := by
  cases ps with
  | nil => exact .pure _
  | cons p r =>
    exact (JsxPart.notes_instrument t env p).seq fun _ => (JsxPart.notes_instruments t env r).map

theorem Property.notes_instrument (t : Tracer) (env : List Due) (p : Property) :
    Notes t env (p.demands env) [] [] (p.instrument t) := by
  cases p with
  | shorthand name e => exact (Expr.notes_instrument? t env e).map
  | keyValue k e =>
    exact (Key.notes_instrument t env k).seq fun _ => (Expr.notes_instrument t env e).map
  | method k f =>
    exact (Key.notes_instrument t env k).seq fun _ => (Function.notes_instrument t env f).map
  | getter p k b =>
    refine Notes.inFunction List.not_mem_nil ((Key.notes_instrument t env k).seq fun _ => ?_)
    exact (Block.notes_instrument t env b).drop.map
  | setter p k q b =>
    refine Notes.inFunction q.arguments_not_mem_boundNames ?_
    refine ((Key.notes_instrument t env k).under _).seq fun _ => ?_
    refine ((Pat.notes_instrument t env q).under _).seq fun _ => ?_
    exact (Block.notes_instrument t _ b).drop.map
  | spread p e => exact (Expr.notes_instrument t env e).map

theorem Property.notes_instruments (t : Tracer) (env : List Due) (ps : List Property) :
    Notes t env (Property.demandsOf env ps) [] [] (Property.instruments t ps) := by
  cases ps with
  | nil => exact .pure _
  | cons p r =>
    exact (Property.notes_instrument t env p).seq fun _ => (Property.notes_instruments t env r).map

theorem Key.notes_instrument (t : Tracer) (env : List Due) (k : Key) :
    Notes t env (k.demands env) [] [] (k.instrument t) := by
  cases k with
  | computed p e => exact (Expr.notes_instrument t env e).map
  | name | literal => exact .pure _

theorem Pat.notes_instrument (t : Tracer) (env : List Due) (q : Pat) :
    Notes t env (q.demands env) [] [] (q.instrument t) := by
  cases q with
  | ident | elision => exact .pure _
  | array p items => exact (Pat.notes_instruments t env items).map
  | object p members => exact (PatProperty.notes_instruments t env members).map
  | rest p q => exact (Pat.notes_instrument t env q).map
  | withDefault p q e =>
    exact (Pat.notes_instrument t env q).seq fun _ => (Expr.notes_instrument t env e).map
  | expr e => exact (Expr.notes_instrument t env e).map

theorem Pat.notes_instruments (t : Tracer) (env : List Due) (qs : List Pat) :
    Notes t env (Pat.demandsOf env qs) [] [] (Pat.instruments t qs) := by
  cases qs with
  | nil => exact .pure _
  | cons q r =>
    exact (Pat.notes_instrument t env q).seq fun _ => (Pat.notes_instruments t env r).map

theorem Pat.notes_instrument? (t : Tracer) (env : List Due) (q : Option Pat) :
    Notes t env (Pat.demands? env q) [] [] (Pat.instrument? t q) := by
  cases q with
  | none => exact .pure _
  | some q => exact (Pat.notes_instrument t env q).map

theorem PatProperty.notes_instrument (t : Tracer) (env : List Due) (p : PatProperty) :
    Notes t env (p.demands env) [] [] (p.instrument t) := by
  cases p with
  | keyValue k q =>
    exact (Key.notes_instrument t env k).seq fun _ => (Pat.notes_instrument t env q).map
  | shorthand p name e => exact (Expr.notes_instrument? t env e).map
  | rest p q => exact (Pat.notes_instrument t env q).map

theorem PatProperty.notes_instruments (t : Tracer) (env : List Due) (ps : List PatProperty) :
    Notes t env (PatProperty.demandsOf env ps) [] [] (PatProperty.instruments t ps) := by
  cases ps with
  | nil => exact .pure _
  | cons p r =>
    exact (PatProperty.notes_instrument t env p).seq fun _ =>
      (PatProperty.notes_instruments t env r).map

theorem Function.notes_instrument (t : Tracer) (env : List Due) (f : Function) :
    Notes t env (f.demands env) [] [] (f.instrument t) := by
  cases f with
  | mk p a g ds ps b =>
    have hnames := Pat.arguments_not_mem_boundNamesOf (ps.map Param.pat)
    refine Notes.inFunction hnames (((Expr.notes_instruments t env ds).under _).seq fun _ => ?_)
    refine ((Param.notes_instruments t env ps).under _).seq fun _ => ?_
    exact (Block.notes_instrumentBody? t _ p hnames b).map

theorem Block.notes_instrumentBody? (t : Tracer) (env : List Due) (p : Place) {names : List String}
    (hnames : argumentsName ∉ names) (b : Option Block) :
    Notes t env (Block.demands? env b) [] [] (Block.instrumentBody? t p names b) := by
  cases b with
  | none => exact .pure _
  | some b => exact ((Block.notes_instrument t env b).drop.entering p hnames).map

theorem Param.notes_instrument (t : Tracer) (env : List Due) (p : Param) :
    Notes t env (p.demands env) [] [] (p.instrument t) := by
  cases p with
  | mk p ds i q =>
    exact (Expr.notes_instruments t env ds).seq fun _ => (Pat.notes_instrument t env q).map

theorem Param.notes_instruments (t : Tracer) (env : List Due) (ps : List Param) :
    Notes t env (Param.demandsOf env ps) [] [] (Param.instruments t ps) := by
  cases ps with
  | nil => exact .pure _
  | cons p r =>
    exact (Param.notes_instrument t env p).seq fun _ => (Param.notes_instruments t env r).map

theorem ArrowBody.notes_instrument (t : Tracer) (env : List Due) (p : Place) {names : List String}
    (hnames : argumentsName ∉ names) (b : ArrowBody) :
    Notes t env (b.demands env) [] [] (b.instrument t p names) := by
  cases b with
  | block b => exact ((Block.notes_instrument t env b).drop.entering p hnames).map
  | expr e => exact ((Expr.notes_instrument t env e).returning p hnames).map

/-- What a block declares by `var` goes through it. -/
theorem Block.notes_instrument (t : Tracer) (env : List Due) (b : Block) :
    Notes t env (b.demands env) b.listedVars [] (b.instrument t) := by
  cases b with
  | mk p ss => exact (Stmt.notes_instruments t env ss).map.inBlock

theorem Block.notes_instrument? (t : Tracer) (env : List Due) (b : Option Block) :
    Notes t env (Block.demands? env b) (Block.listedVars? b) [] (Block.instrument? t b) := by
  cases b with
  | none => exact .pure _
  | some b => exact (Block.notes_instrument t env b).map

theorem Class.notes_instrument (t : Tracer) (env : List Due) (c : Class) :
    Notes t env (c.demands env) [] [] (c.instrument t) := by
  cases c with
  | mk p ds members parent =>
    refine (Expr.notes_instruments t env ds).seq fun _ => ?_
    exact (ClassMember.notes_instruments t env members).seq fun _ =>
      (Expr.notes_instrument? t env parent).map

theorem ClassMember.notes_instrument (t : Tracer) (env : List Due) (m : ClassMember) :
    Notes t env (m.demands env) [] [] (m.instrument t) := by
  cases m with
  | ctor p k ps b =>
    have hnames := Pat.arguments_not_mem_boundNamesOf (ps.map Param.pat)
    refine Notes.inFunction hnames (((Param.notes_instruments t env ps).under _).seq fun _ => ?_)
    exact (Block.notes_instrumentBody? t _ p hnames b).map
  | method p k kind st e f =>
    exact (Key.notes_instrument t env k).seq fun _ => (Function.notes_instrument t env f).map
  | property p k st e a v ds =>
    refine (Key.notes_instrument t env k).seq fun _ => ?_
    exact (Expr.notes_instrument? t env v).seq fun _ => (Expr.notes_instruments t env ds).map
  | staticBlock p b => exact (Block.notes_instrument t env b).drop.map
  | empty p => exact .pure _

theorem ClassMember.notes_instruments (t : Tracer) (env : List Due) (ms : List ClassMember) :
    Notes t env (ClassMember.demandsOf env ms) [] [] (ClassMember.instruments t ms) := by
  cases ms with
  | nil => exact .pure _
  | cons m r =>
    exact (ClassMember.notes_instrument t env m).seq fun _ =>
      (ClassMember.notes_instruments t env r).map

theorem Stmt.notes_instrument (t : Tracer) (env : List Due) (st : Stmt) :
    Notes t env (st.demands env) st.listedVars [] (st.instrument t) := by
  cases st with
  | block b => exact (Block.notes_instrument t env b).map
  | withObject p e st | whileLoop p e st =>
    exact (Expr.notes_instrument t env e).seq fun _ => (Stmt.notes_instrument t env st).map
  | doWhileLoop p e st =>
    -- the condition is traversed before the body, so what the body declares is not shown in it
    have he := (Expr.notes_instrument t (lateDue st.listedVars ++ env) e).late
    exact he.seq fun _ => (Stmt.notes_instrument t env st).map
  | returnStmt p e => exact (Expr.notes_instrument? t env e).map
  | labeled p l st => exact (Stmt.notes_instrument t env st).map
  | ifElse p e yes no =>
    refine (Expr.notes_instrument t env e).seq fun _ => ?_
    exact (Stmt.notes_instrument t env yes).andThen fun _ => (Stmt.notes_instrument? t _ no).map
  | switchOn p e cases =>
    refine (Expr.notes_instrument t env e).seq fun _ => ?_
    exact (SwitchCase.notes_instruments t env cases).inBlock.map
  | throwStmt p e | expr p e | exportDefault p e => exact (Expr.notes_instrument t env e).map
  | tryStmt p b c f =>
    refine (Block.notes_instrument t env b).andThen fun _ => ?_
    exact (Catch.notes_instrument? t _ c).andThen fun _ => (Block.notes_instrument? t _ f).map
  | forLoop p h test update st =>
    refine notes_inLoop h (((LoopHead.notes_instrument t env h).under _).seq fun _ => ?_)
    refine (Expr.notes_instrument? t _ test).seq fun _ => ?_
    exact (Expr.notes_instrument? t _ update).seq fun _ => (Stmt.notes_instrument t _ st).map
  | forIn p h e st | forOf p a h e st =>
    refine notes_inLoop h (((LoopHead.notes_instrument t env h).under _).seq fun _ => ?_)
    refine ((Expr.notes_instrument t env e).under _).seq fun _ => ?_
    exact (Stmt.notes_instrument t _ st).map
  | varDecl d => exact (VarDecl.notes_instrument t env d).map
  | func name f | exportDefaultFunc p name f => exact (Function.notes_instrument t env f).map
  | classDecl name c | exportDefaultClass p name c => exact (Class.notes_instrument t env c).map
  | exportDecl p d => exact (Stmt.notes_instrument t env d).map
  | empty | debugger | breakTo | continueTo | importNames | exportNames | exportAll | typed =>
    exact .pure _

theorem Stmt.notes_instrument? (t : Tracer) (env : List Due) (st : Option Stmt) :
    Notes t env (Stmt.demands? env st) (Stmt.listedVars? st) [] (Stmt.instrument? t st) := by
  cases st with
  | none => exact .pure _
  | some st => exact (Stmt.notes_instrument t env st).map

theorem Stmt.notes_instruments (t : Tracer) (env : List Due) (ss : List Stmt) :
    Notes t env (Stmt.demandsOf env ss) (Stmt.listedVarsOf ss) (Stmt.lexicalNamesOf ss)
      (Stmt.instruments t ss) := by
  cases ss with
  | nil => exact .pure _
  | cons st r =>
    refine (Stmt.notes_instrument t env st).andThen fun s => ?_
    refine (Stmt.notes_after_instrument t env st s).bind fun _ => ?_
    exact (Stmt.notes_instruments t (st.leave env) r).map

theorem VarDecl.notes_instrument (t : Tracer) (env : List Due) (d : VarDecl) :
    Notes t env (d.demands env) [] [] (d.instrument t) := by
  cases d with
  | mk p kind b items => exact (Declarator.notes_instruments t env items).map

theorem Declarator.notes_instrument (t : Tracer) (env : List Due) (d : Declarator) :
    Notes t env (d.demands env) [] [] (d.instrument t) := by
  cases d with
  | mk p q e =>
    exact (Pat.notes_instrument t env q).seq fun _ => (Expr.notes_instrument? t env e).map

theorem Declarator.notes_instruments (t : Tracer) (env : List Due) (ds : List Declarator) :
    Notes t env (Declarator.demandsOf env ds) [] [] (Declarator.instruments t ds) := by
  cases ds with
  | nil => exact .pure _
  | cons d r =>
    exact (Declarator.notes_instrument t env d).seq fun _ => (Declarator.notes_instruments t env r).map

theorem SwitchCase.notes_instrument (t : Tracer) (env : List Due) (c : SwitchCase) :
    Notes t env (c.demands env) (Stmt.listedVarsOf c.stmts) (Stmt.lexicalNamesOf c.stmts)
      (c.instrument t) := by
  cases c with
  | mk p e ss =>
    exact (Expr.notes_instrument? t env e).seq fun _ => (Stmt.notes_instruments t env ss).map

theorem SwitchCase.notes_instruments (t : Tracer) (env : List Due) (cs : List SwitchCase) :
    Notes t env (SwitchCase.demandsOf env cs) (SwitchCase.listedVarsOf cs) (SwitchCase.lexicalNamesOf cs)
      (SwitchCase.instruments t cs) := by
  match cs with
  | [] => exact .pure _
  | .mk p e ss :: r =>
    refine (SwitchCase.notes_instrument t env (.mk p e ss)).bind fun _ => ?_
    exact (SwitchCase.notes_instruments t _ r).map

theorem Catch.notes_instrument? (t : Tracer) (env : List Due) (c : Option Catch) :
    Notes t env (Catch.demands? env c) (Catch.listedVars? c) [] (Catch.instrument? t c) := by
  match c with
  | none => exact .pure _
  | some (.mk p q b) =>
    refine (Notes.inCatch (Catch.arguments_not_mem_names q) ?_).map
    refine ((Pat.notes_instrument? t env q).under _).seq fun _ => ?_
    exact (Block.notes_instrument t _ b).map

theorem LoopHead.notes_instrument (t : Tracer) (env : List Due) (h : LoopHead) :
    Notes t env (h.demands env) [] [] (h.instrument t) := by
  cases h with
  | none => exact .pure _
  | varDecl d => exact (VarDecl.notes_instrument t env d).map
  | pat q => exact (Pat.notes_instrument t env q).map
  | expr e => exact (Expr.notes_instrument t env e).map

end

/-! ### Whole programs -/

/-- What a program notes, all of it in a scope for the whole program. -/
theorem Program.noted_instrument (t : Tracer) (p : Program) :
    List.Forall₂ (Demand.Met t) p.demands ((p.instrument t).2.filter (·.kind = .statement)) ∧
      ∀ x ∈ (p.instrument t).2, x.IsProper := by
  obtain ⟨-, hsteps, hsites⟩ := Stmt.notes_instruments t [] p.body ⟨[⟨.function, []⟩], []⟩
  obtain ⟨new, hnew, hmet⟩ := hsteps List.mem_cons_self (allRead_nil _)
  refine ⟨?_, fun x hx => (hsites x (List.mem_reverse.1 hx)).resolve_left List.not_mem_nil⟩
  have hrun : (inScope (·.push .function) (Stmt.instruments t p.body) ⟨[], []⟩).2.steps = new.reverse :=
    hnew.trans (List.append_nil _)
  have hall : (p.instrument t).2.filter (·.kind = .statement) = new :=
    calc (p.instrument t).2.filter (·.kind = .statement)
        = (inScope (·.push .function) (Stmt.instruments t p.body) ⟨[], []⟩).2.steps.reverse :=
          List.filter_reverse ..
      _ = new := by rw [hrun, List.reverse_reverse]
  exact hall ▸ hmet

/-- The probes after steps are just those that are demanded, in their order and where they should be, and each
reads all that is due there, but for what is late in the condition of a `do` loop. -/
theorem Program.demands_met (t : Tracer) (p : Program) :
    List.Forall₂ (Demand.Met t) p.demands ((p.instrument t).2.filter (·.kind = .statement)) :=
  (Program.noted_instrument t p).1

/-- Shows that a function in the condition of a `do` loop does not read what the body declares, which comes
before it. -/
theorem Program.not_read_of_doLoop :
    let at_ (n : Nat) : Place := some ⟨n, n + 1⟩
    let x : VarDecl := .mk (at_ 5) .var false [.mk (at_ 9) (.ident ⟨at_ 9, "x"⟩) none]
    let f : Function := .mk (at_ 26) false false [] []
      (some (.mk (at_ 38) [.expr (at_ 40) (.ident ⟨at_ 40, "foo"⟩)]))
    let test : Expr := .call (at_ 25) .plain (.paren (at_ 25) (.func none f)) []
    let p : Program := ⟨false, none, [.doWhileLoop (at_ 0) test (.block (.mk (at_ 3) [.varDecl x]))]⟩
    let t : Tracer := ⟨"t.js", fun n => ⟨1, n⟩⟩
    (p.demands.map fun d => (d.span.start, d.dues.map Due.name)) = [(40, ["x"]), (5, ["x"])] ∧
      ((p.instrument t).2.map fun x => (x.position.column, x.names)) = [(26, []), (40, []), (5, ["x"])] := by
  intro at_ x f test p t
  exact ⟨by decide +kernel, by decide +kernel⟩

theorem Callable.names_of_site? {t : Tracer} {f : Callable} {x : ProbeSite} (h : f.site? t = some x) :
    x.names = f.names := by
  unfold Callable.site? at h
  split at h
  · cases h
  · obtain ⟨span, -, rfl⟩ := Option.map_eq_some_iff.1 h
    rfl

/-- No probe reads all arguments, and none reads a name twice, unless it is the probe of a function whose
parameters bind a name twice. -/
theorem Program.names_distinct (t : Tracer) (p : Program) :
    ∀ x ∈ (p.instrument t).2, argumentsName ∉ x.names ∧
      (x.names.Nodup ∨ ∃ f ∈ p.callables, f.site? t = some x ∧ ¬f.names.Nodup) := by
  intro x hx
  obtain ⟨hlacks, hnodup⟩ := (Program.noted_instrument t p).2 x hx
  refine ⟨hlacks, ?_⟩
  by_cases hkind : x.kind = .statement
  · exact Or.inl (hnodup hkind)
  · have hentry : x ∈ p.callables.filterMap (Callable.site? t) := by
      rw [← Program.entries_instrument]
      exact List.mem_filter.2 ⟨hx, decide_eq_true hkind⟩
    obtain ⟨f, hf, hsite⟩ := List.mem_filterMap.1 hentry
    rw [Callable.names_of_site? hsite]
    exact (Decidable.em f.names.Nodup).imp_right fun h => ⟨f, hf, hsite, h⟩

/-- A block that shadows a parameter, in a function whose other parameter is called as all arguments are. -/
theorem Program.names_distinct_shadowed :
    let at_ (n : Nat) : Place := some ⟨n, n + 1⟩
    let param (n : Nat) (name : String) : Param := .mk (at_ n) [] false (.ident ⟨at_ n, name⟩)
    let inner : VarDecl := .mk (at_ 29) .let false [.mk (at_ 33) (.ident ⟨at_ 33, "a"⟩) none]
    let body : Block := .mk (at_ 25) [.block (.mk (at_ 27) [.varDecl inner])]
    let f : Function := .mk (at_ 0) false false [] [param 11 "a", param 14 "arguments"] (some body)
    let p : Program := ⟨false, none, [.func ⟨at_ 9, "f"⟩ f]⟩
    let t : Tracer := ⟨"t.js", fun n => ⟨1, n⟩⟩
    let x : ProbeSite := ⟨.statement, ⟨1, 29⟩, ["a"]⟩
    x ∈ (p.instrument t).2 ∧ argumentsName ∉ x.names ∧
      (x.names.Nodup ∨ ∃ f ∈ p.callables, f.site? t = some x ∧ ¬f.names.Nodup) := by
  intro at_ param inner body f p t x
  have hx : x ∈ (p.instrument t).2 := by decide +kernel
  exact ⟨hx, Program.names_distinct t p x hx⟩

/-- Shows that the probe of a function reads a parameter twice that is bound twice. -/
theorem Program.names_of_repeated_parameter :
    let at_ (n : Nat) : Place := some ⟨n, n + 1⟩
    let param (n : Nat) : Param := .mk (at_ n) [] false (.ident ⟨at_ n, "a"⟩)
    let f : Function := .mk (at_ 0) false false [] [param 11, param 14] (some (.mk (at_ 17) []))
    let p : Program := ⟨false, none, [.func ⟨at_ 9, "f"⟩ f]⟩
    let t : Tracer := ⟨"t.js", fun n => ⟨1, n⟩⟩
    (p.instrument t).2 = [⟨.entry, ⟨1, 0⟩, ["a", "a"]⟩] := by
  intro at_ param f p t
  decide +kernel

end StepTrace.Script
