import Mathlib.Data.List.Basic
import StepTrace.Script.Typed.Lowering

/-!
Exports of variables that are only described: a program without types has none of them.
-/
namespace StepTrace.Script

/-- The export of variables that are only described. -/
def Stmt.isAmbientExport : Stmt → Bool
  | .exportDecl _ (.varDecl d) => d.isDeclare
  | _ => false

/-- None of some statements is such an export. -/
def NoneAmbient (ss : List Stmt) : Prop := ∀ s ∈ ss, s.isAmbientExport = false

namespace NoneAmbient

theorem nil : NoneAmbient [] := List.forall_mem_nil _

theorem one {s : Stmt} (h : s.isAmbientExport = false) : NoneAmbient [s] := List.forall_mem_singleton.2 h

theorem append {a b : List Stmt} (ha : NoneAmbient a) (hb : NoneAmbient b) : NoneAmbient (a ++ b) :=
  List.forall_mem_append.2 ⟨ha, hb⟩

theorem ite {c : Prop} [Decidable c] {a b : List Stmt} (ha : c → NoneAmbient a) (hb : ¬c → NoneAmbient b) :
    NoneAmbient (if c then a else b) := by
  split
  · next hc => exact ha hc
  · next hc => exact hb hc

/-- Nothing is left, or what is. -/
theorem unlessEmpty {c : Prop} [Decidable c] {a : List Stmt} (ha : ¬c → NoneAmbient a) :
    NoneAmbient (if c then [] else a) := ite (fun _ => nil) ha

end NoneAmbient

theorem isAmbientExport_filledVar (w : Surroundings) (isGiven : Bool) (name : String) :
    (w.filledVar isGiven name).isAmbientExport = false := by
  simp only [Surroundings.filledVar]
  split <;> rfl

/-- What comes of a declaration of TypeScript. -/
theorem TypedDecl.noneAmbient_lower (w : Surroundings) (isFirst isGiven : Bool) (d : TypedDecl) :
    NoneAmbient (d.lower w isFirst isGiven) := by
  have hvar : ∀ n, NoneAmbient (if isFirst then [w.filledVar isGiven n] else []) := fun n =>
    .ite (fun _ => .one (isAmbientExport_filledVar w isGiven n)) fun _ => .nil
  cases d with
  | enumeration p isDeclare isConst n members =>
    exact .unlessEmpty fun _ => (hvar n.text).append (.unlessEmpty fun _ => .one rfl)
  | «namespace» p isDeclare path stmts =>
    cases path with
    | nil => exact .unlessEmpty fun _ => .nil
    | cons n r => exact .unlessEmpty fun _ => (hvar n.text).append (.one rfl)
  | importEquals p isExport isType n path =>
    refine .unlessEmpty fun _ => .ite (fun _ => ?_) fun _ => .one rfl
    intro s hs
    obtain ⟨space, -, rfl⟩ := Option.map_eq_some_iff.1 (Option.mem_toList.1 hs)
    rfl
  | importRequire | exportAssign | ambient | ambientModule | erased => exact .nil

theorem VarDecl.isDeclare_lower (w : Surroundings) (d : VarDecl) :
    (d.lower w).isDeclare = d.isDeclare := by
  cases d
  rfl

/-- What is left of an exported declaration. -/
theorem Stmt.noneAmbient_lowerGiven (w : Surroundings) (isFirst : Bool) (p : Place) (d : Stmt) :
    NoneAmbient (d.lowerGiven w isFirst p) := by
  cases d with
  | typed d => exact TypedDecl.noneAmbient_lower w isFirst true d
  | varDecl d =>
    refine .unlessEmpty fun hd => .ite (fun _ => ?_) fun _ => .one ?_
    · split
      · exact .nil
      · exact .one rfl
      · exact .one rfl
    · exact (VarDecl.isDeclare_lower w d).trans (Bool.not_eq_true _ ▸ hd)
  | func n f =>
    refine .unlessEmpty fun _ => ?_
    split
    · exact .append (.one rfl) (.one rfl)
    · exact .one rfl
  | classDecl n c =>
    rw [Stmt.lowerGiven]
    split
    · exact .append (.one rfl) (.one rfl)
    · exact .one rfl
  | _ => exact .nil

theorem Stmt.noneAmbient_lower (w : Surroundings) (isFirst : Bool) (st : Stmt) :
    NoneAmbient (st.lower w isFirst) := by
  cases st with
  | exportDecl p d => exact Stmt.noneAmbient_lowerGiven w isFirst p d
  | typed d => exact TypedDecl.noneAmbient_lower w isFirst false d
  | varDecl d | empty p | func n f | exportDefaultFunc p n f => exact .unlessEmpty fun _ => .one rfl
  | _ => exact .one rfl

theorem Stmt.noneAmbient_lowers (w : Surroundings) (seen : List String) (ss : List Stmt) :
    NoneAmbient (Stmt.lowers w seen ss) := by
  induction ss generalizing w seen with
  | nil => exact .nil
  | cons st r ih =>
    have hkept : ∀ keys, NoneAmbient (Stmt.keeping keys) := fun keys => .unlessEmpty fun _ => .one rfl
    exact ((hkept _).append (Stmt.noneAmbient_lower _ _ st)).append (ih _ _)

/-- Exports that are only described go with the types. -/
theorem Program.noneAmbient_withoutTypes (p : Program) : NoneAmbient p.withoutTypes.body := by
  have hleft : ∀ w ss, NoneAmbient (Stmt.lowers w [] ss) := fun w ss => Stmt.noneAmbient_lowers w [] ss
  exact .ite (fun _ => (hleft _ _).append (.one rfl)) fun _ => hleft _ _

end StepTrace.Script
