import StepTrace.Proofs.Script.Bodies

/-!
What statements do. Expressions and declarations mean what an interpretation says; statements decide which of
them are carried out, in which order and how often. A statement relates a state to the states in which it may
end and to how it ends there; where it does not end it relates the state to nothing.
-/
namespace StepTrace.Script

/-- How a statement ends. A jump names its label, if it has one. -/
inductive Completion (V : Type) where
  | normal
  | breakTo (label : Option String)
  | continueTo (label : Option String)
  | returns (value : V)
  | throws (value : V)

/-- What carries the execution on in the next round of a loop with the given labels. -/
def Completion.continues {V : Type} (labels : List String) : Completion V → Prop
  | continueTo none => True
  | continueTo (some l) => l ∈ labels
  | _ => False

/-- From which state to which, with a result or with a thrown value. -/
abbrev Effect (S V α : Type) := S → Except V α → S → Prop

/-- From which state to which, and how it ends. -/
abbrev Behaviour (S V : Type) := S → Completion V → S → Prop

namespace Effect

variable {S V α β : Type}

def pure (a : α) : Effect S V α := fun s r s' => r = .ok a ∧ s' = s

def bind (m : Effect S V α) (k : α → Effect S V β) : Effect S V β := fun s r s' =>
  (∃ v, m s (.error v) s' ∧ r = .error v) ∨ ∃ a t, m s (.ok a) t ∧ k a t r s'

/-- What is done with the result; a thrown value ends it. -/
def andThen (m : Effect S V α) (k : α → Behaviour S V) : Behaviour S V := fun s c s' =>
  (∃ v, m s (.error v) s' ∧ c = .throws v) ∨ ∃ a t, m s (.ok a) t ∧ k a t c s'

end Effect

namespace Behaviour

variable {S V α : Type}

/-- Ends at once. -/
def ending (c : Completion V) : Behaviour S V := fun s c' s' => c' = c ∧ s' = s

def done : Behaviour S V := ending .normal

/-- One after the other, if the first one ends normally. -/
def followedBy (r r' : Behaviour S V) : Behaviour S V := fun s c s' =>
  (c ≠ .normal ∧ r s c s') ∨ ∃ t, r s .normal t ∧ r' t c s'

/-- Some jumps end here, and it goes on normally. -/
def absorbing (jumps : Completion V → Prop) (r : Behaviour S V) : Behaviour S V := fun s c s' =>
  (¬jumps c ∧ r s c s') ∨ (c = .normal ∧ ∃ c', jumps c' ∧ r s c' s')

/-- A `break` without a label ends here. -/
def breakable (r : Behaviour S V) : Behaviour S V := r.absorbing (· = .breakTo none)

/-- Rounds, one for each thing that comes next, until there is none or a round does not end normally. -/
inductive Iterates (next : Effect S V (Option α)) (round : α → Behaviour S V) : Behaviour S V
  | stops {s s' : S} : next s (.ok none) s' → Iterates next round s .normal s'
  | throws {s s' : S} {v : V} : next s (.error v) s' → Iterates next round s (.throws v) s'
  | leaves {s t s' : S} {a : α} {c : Completion V} :
    next s (.ok (some a)) t → round a t c s' → c ≠ .normal → Iterates next round s c s'
  | again {s t u s' : S} {a : α} {c : Completion V} :
    next s (.ok (some a)) t → round a t .normal u → Iterates next round u c s' →
      Iterates next round s c s'

/-- What is done with a thrown value. -/
def catching (r : Behaviour S V) (handler : V → Behaviour S V) : Behaviour S V := fun s c s' =>
  ((∀ v, c ≠ .throws v) ∧ r s c s') ∨ ∃ v t, r s (.throws v) t ∧ handler v t c s'

/-- What is done in the end; it ends as before, unless that does not end normally. -/
def finallyDo (r last : Behaviour S V) : Behaviour S V := fun s c s' =>
  ∃ c' t, r s c' t ∧ ((c = c' ∧ last t .normal s') ∨ (c ≠ .normal ∧ last t c s'))

/-- What is done when it does not end normally, which tells how it ends. -/
def closing (close : Completion V → Behaviour S V) (r : Behaviour S V) : Behaviour S V := fun s c s' =>
  (c = .normal ∧ r s .normal s') ∨ ∃ c' t, c' ≠ .normal ∧ r s c' t ∧ close c' t c s'

end Behaviour

open Behaviour

/-! ### Scopes -/

namespace Stmt

/-- Declarations whose names belong to the block that they stand in. -/
def isLexical : Stmt → Bool
  | func .. | classDecl .. => true
  | varDecl d => d.kind != .var
  | _ => false

def lexicals (ss : List Stmt) : List Stmt := ss.filter isLexical

end Stmt

namespace SwitchCase

def isDefault : SwitchCase → Bool
  | mk _ test _ => test.isNone

def body : SwitchCase → List Stmt
  | mk _ _ ss => ss

end SwitchCase

/-- What values are given to: the head of a loop over items, or the parameter of a handler. -/
inductive Target where
  | head (h : LoopHead)
  | param (q : Option Pat)

/-- What opens a scope: a block with its declarations, a target, or the object of a `with`. -/
inductive Frame (V : Type) where
  | block (declarations : List Stmt)
  | target (x : Target)
  | object (v : V)

def Target.mapBodies (f : Block → Block) : Target → Target
  | head h => head (h.mapBodies f)
  | param q => param (q.map (Pat.mapBodies f))

def Frame.mapBodies {V : Type} (f : Block → Block) : Frame V → Frame V
  | block ds => block (ds.map (Stmt.mapBodies f))
  | target x => target (x.mapBodies f)
  | object v => object v

/-- How the items of a value are gone through: its keys, or its elements, perhaps waiting for each. -/
inductive Iteration where
  | keys
  | elements (isAwait : Bool)

/-! ### Interpretations -/

/-- What expressions and declarations do. Scopes are what the interpretation makes of them, but for one thing:
a block in which nothing is declared opens none. -/
structure Interpretation where
  State : Type
  Value : Type
  /-- A place among the items of a value. -/
  Cursor : Type
  eval : Expr → Effect State Value Value
  declare : Stmt → Effect State Value Unit
  bind : Target → Value → Effect State Value Unit
  /-- Makes the variables of the head of a loop new for a round. -/
  renew : LoopHead → Effect State Value Unit
  within : Frame Value → Behaviour State Value → Behaviour State Value
  within_block_nil : ∀ r, within (.block []) r = r
  undefined : Value
  isTrue : Value → Bool
  isSame : Value → Value → Bool
  iterate : Iteration → Value → Effect State Value Cursor
  next : Cursor → Effect State Value (Option Value)
  /-- Leaves the items before their end. -/
  close : Cursor → Completion Value → Behaviour State Value

namespace Interpretation

/-- The interpretation makes no difference between the body of a function and its normal form. -/
structure IgnoresForm (I : Interpretation) : Prop where
  eval : ∀ e, I.eval (e.mapBodies Block.normal) = I.eval e
  declare : ∀ d, I.declare (d.mapBodies Block.normal) = I.declare d
  bind : ∀ x, I.bind (x.mapBodies Block.normal) = I.bind x
  renew : ∀ h, I.renew (h.mapBodies Block.normal) = I.renew h
  within : ∀ x, I.within (x.mapBodies Block.normal) = I.within x

variable (I : Interpretation)

def evaluated : Option Expr → Behaviour I.State I.Value
  | none => done
  | some e => (I.eval e).andThen fun _ => done

def declared (d : Stmt) : Behaviour I.State I.Value := (I.declare d).andThen fun _ => done

/-- Whether a loop goes on; without a condition it always does. -/
def test : Option Expr → Effect I.State I.Value (Option Unit)
  | none => .pure (some ())
  | some e => (I.eval e).bind fun v => .pure (if I.isTrue v then some () else none)

/-- A statement in the place of a body. A declaration in such a place is in a scope of its own, as it would be
in a block. -/
def inBody (st : Stmt) (r : Behaviour I.State I.Value) : Behaviour I.State I.Value :=
  I.within (.block (Stmt.lexicals [st])) r

/-- What stands before the first semicolon of a loop. -/
def begin : LoopHead → Behaviour I.State I.Value
  | .varDecl d => I.declared (.varDecl d)
  | .expr e => I.evaluated (some e)
  | .none | .pat _ => done

/-- A loop over the items of a value. -/
def each (labels : List String) (kind : Iteration) (h : LoopHead) (subject : Expr)
    (body : Behaviour I.State I.Value) : Behaviour I.State I.Value :=
  (I.eval subject).andThen fun v => (I.iterate kind v).andThen fun cursor =>
    breakable (Iterates (I.next cursor) fun item =>
      closing (I.close cursor)
        ((I.within (.target (.head h)) ((I.bind (.head h) item).andThen fun _ => body)).absorbing
          (Completion.continues labels)))

/-- The number of the first case with a value. -/
def matching (v : I.Value) : List SwitchCase → Effect I.State I.Value (Option Nat)
  | [] => .pure none
  | .mk _ none _ :: r => (matching v r).bind fun n => .pure (n.map (· + 1))
  | .mk _ (some e) _ :: r => (I.eval e).bind fun w =>
    if I.isSame v w then .pure (some 0) else (matching v r).bind fun n => .pure (n.map (· + 1))

/-- The case to start from: the first one with the value, else the one without a test. -/
def picks (v : I.Value) (cases : List SwitchCase) : Effect I.State I.Value (Option Nat) :=
  (I.matching v cases).bind fun n =>
    .pure (n <|> cases.findIdx? SwitchCase.isDefault)

end Interpretation

/-! ### Statements -/

mutual

/-- What a statement does that has the given labels. -/
def Stmt.runs (I : Interpretation) (labels : List String) : Stmt → Behaviour I.State I.Value
  | .block b => b.runs I
  | .empty _ | .debugger _ => done
  | .withObject _ e s => (I.eval e).andThen fun v => I.within (.object v) (I.inBody s (s.runs I []))
  | .returnStmt _ none => ending (.returns I.undefined)
  | .returnStmt _ (some e) => (I.eval e).andThen fun v => ending (.returns v)
  | .labeled _ l s => (s.runs I (l.text :: labels)).absorbing (· = .breakTo (some l.text))
  | .breakTo _ l => ending (.breakTo (l.map Ident.text))
  | .continueTo _ l => ending (.continueTo (l.map Ident.text))
  | .ifElse _ e yes no => (I.eval e).andThen fun v =>
    if I.isTrue v then I.inBody yes (yes.runs I []) else Stmt.runs? I no
  | .switchOn _ e cases => (I.eval e).andThen fun v =>
    breakable (I.within (.block (cases.flatMap fun c => Stmt.lexicals c.body))
      ((I.picks v cases).andThen fun n => SwitchCase.runsFrom I cases n))
  | .throwStmt _ e => (I.eval e).andThen fun v => ending (.throws v)
  | .tryStmt _ b c f => ((b.runs I).catching (Catch.runs? I c)).finallyDo (Block.runs? I f)
  | .whileLoop _ e s =>
    let round := (I.inBody s (s.runs I [])).absorbing (Completion.continues labels)
    breakable (Iterates (I.test (some e)) fun _ => round)
  | .doWhileLoop _ e s =>
    let round := (I.inBody s (s.runs I [])).absorbing (Completion.continues labels)
    breakable (round.followedBy (Iterates (I.test (some e)) fun _ => round))
  | .forLoop _ h test update s =>
    let round := (I.inBody s (s.runs I [])).absorbing (Completion.continues labels)
    I.within (.target (.head h)) ((I.begin h).followedBy ((I.renew h).andThen fun _ =>
      breakable (Iterates (I.test test) fun _ =>
        round.followedBy ((I.renew h).andThen fun _ => I.evaluated update))))
  | .forIn _ h e s => I.each labels .keys h e (I.inBody s (s.runs I []))
  | .forOf _ a h e s => I.each labels (.elements a) h e (I.inBody s (s.runs I []))
  | .expr _ e => I.evaluated (some e)
  | .exportDecl _ d => d.runs I []
  | d => I.declared d

def Stmt.runs? (I : Interpretation) : Option Stmt → Behaviour I.State I.Value
  | none => done
  | some s => I.inBody s (s.runs I [])

def Stmt.runsAll (I : Interpretation) : List Stmt → Behaviour I.State I.Value
  | [] => done
  | s :: r => (s.runs I []).followedBy (Stmt.runsAll I r)

def Block.runs (I : Interpretation) : Block → Behaviour I.State I.Value
  | .mk _ ss => I.within (.block (Stmt.lexicals ss)) (Stmt.runsAll I ss)

def Block.runs? (I : Interpretation) : Option Block → Behaviour I.State I.Value
  | none => done
  | some b => b.runs I

def SwitchCase.runs (I : Interpretation) : SwitchCase → Behaviour I.State I.Value
  | .mk _ _ ss => Stmt.runsAll I ss

/-- The cases from the one with the given number on. -/
def SwitchCase.runsFrom (I : Interpretation) :
    List SwitchCase → Option Nat → Behaviour I.State I.Value
  | [], _ | _ :: _, none => done
  | c :: r, some 0 => (c.runs I).followedBy (SwitchCase.runsFrom I r (some 0))
  | _ :: r, some (n + 1) => SwitchCase.runsFrom I r (some n)

def Catch.runs (I : Interpretation) : Catch → I.Value → Behaviour I.State I.Value
  | .mk _ q b, v =>
    I.within (.target (.param q)) ((I.bind (.param q) v).andThen fun _ => b.runs I)

/-- Without a handler a value is thrown on. -/
def Catch.runs? (I : Interpretation) : Option Catch → I.Value → Behaviour I.State I.Value
  | none, v => ending (.throws v)
  | some c, v => c.runs I v

end

end StepTrace.Script
