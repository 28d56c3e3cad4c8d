import Mathlib.Data.List.Basic
import StepTrace.Command.Globals

/-!
Bringing the options of the whole program to the front. Arguments fall into groups in just one way, and the
groups come out in two runs, the global ones and then all else, each in the order in which they came in. An
option that is the last argument has no value: it is a global group, but no complete one, and it is the last
of them.
-/
namespace StepTrace.Command

/-! ### Words -/

/-- A word that is a complete global group. -/
def standsAlone (word : String) : Bool := isGlobalSwitch word || holdsValue word

theorem awaitsValue_iff {word : String} :
    awaitsValue word ↔ word = "--config" ∨ word = "--cwd" ∨ word = "--log" := by
  simp [awaitsValue]

/-- A word that awaits a value is no group of its own. -/
theorem not_standsAlone {flag : String} (h : awaitsValue flag) : standsAlone flag = false := by
  obtain rfl | rfl | rfl := awaitsValue_iff.1 h <;> decide

/-! ### Cutting arguments into groups -/

/-- A way to cut arguments into groups. A global group is a switch or an option with its value in one word, or an
option with the argument after it, whatever that looks like, or an option at the end with none. -/
inductive Cut : List String → List Group → Prop
  | nil : Cut [] []
  | alone {word : String} {args : List String} {gs : List Group} :
      standsAlone word → Cut args gs → Cut (word :: args) (.global [word] :: gs)
  | pair {flag value : String} {args : List String} {gs : List Group} :
      awaitsValue flag → Cut args gs → Cut (flag :: value :: args) (.global [flag, value] :: gs)
  | lone {flag : String} : awaitsValue flag → Cut [flag] [.global [flag]]
  | other {word : String} {args : List String} {gs : List Group} :
      awaitsValue word = false → standsAlone word = false → Cut args gs →
        Cut (word :: args) (.other word :: gs)

namespace Group

/-- A global group that lacks nothing. -/
def isComplete : Group → Bool
  | global [word] => standsAlone word
  | global [flag, _] => awaitsValue flag
  | _ => false

@[simp] theorem words_global (ws : List String) : (global ws).words = ws := rfl

@[simp] theorem words_other (word : String) : (other word).words = [word] := rfl

@[simp] theorem isGlobal_global (ws : List String) : (global ws).isGlobal = true := rfl

@[simp] theorem isGlobal_other (word : String) : (other word).isGlobal = false := rfl

@[simp] theorem isComplete_alone (word : String) : (global [word]).isComplete = standsAlone word := rfl

@[simp] theorem isComplete_pair (flag value : String) :
    (global [flag, value]).isComplete = awaitsValue flag := rfl

@[simp] theorem isComplete_other (word : String) : (other word).isComplete = false := rfl

end Group

/-- No option is without its value. -/
def NoneLacks (gs : List Group) : Prop := ∀ g ∈ gs, g.isGlobal → g.isComplete

instance (gs : List Group) : Decidable (NoneLacks gs) := inferInstanceAs (Decidable (∀ g ∈ gs, _))

theorem noneLacks_nil : NoneLacks [] := fun _ h => nomatch h

/-- An option without a value lacks it. -/
theorem not_noneLacks {flag : String} {gs : List Group} (hflag : awaitsValue flag)
    (hmem : .global [flag] ∈ gs) : ¬ NoneLacks gs := by
  intro hwhole
  have hs : standsAlone flag := hwhole _ hmem rfl
  simp [not_standsAlone hflag] at hs

theorem NoneLacks.cons {g : Group} {gs : List Group} (h : NoneLacks gs) (hg : g.isGlobal → g.isComplete) :
    NoneLacks (g :: gs) := List.forall_mem_cons.2 ⟨hg, h⟩

/-- The words of the global groups. -/
def globalWords (gs : List Group) : List String := (gs.filter Group.isGlobal).flatMap Group.words

/-- The words of all other groups. -/
def otherWords (gs : List Group) : List String := (gs.filter (!Group.isGlobal ·)).flatMap Group.words

/-- The words of all but the complete global groups. -/
def restWords (gs : List Group) : List String := (gs.filter (!Group.isComplete ·)).flatMap Group.words

theorem groups_alone {word : String} (h : standsAlone word) (args : List String) :
    groups (word :: args) = .global [word] :: groups args := by
  have hawaits : awaitsValue word = false := by
    cases hw : awaitsValue word with
    | false => rfl
    | true => exact absurd h (by simp [not_standsAlone hw])
  cases args <;> simp_all [groups, standsAlone]

theorem groups_other {word : String} (hawaits : awaitsValue word = false) (h : standsAlone word = false)
    (args : List String) : groups (word :: args) = .other word :: groups args := by
  cases args <;> simp_all [groups, standsAlone]

theorem cut_groups (args : List String) : Cut args (groups args) := by
  fun_induction groups args with
  | case1 => exact .nil
  | case2 word h =>
    cases hawaits : awaitsValue word with
    | true => exact .lone hawaits
    | false => exact .alone (by simpa [standsAlone, hawaits] using h) .nil
  | case3 word h =>
    simp only [Bool.or_eq_true, not_or, Bool.not_eq_true] at h
    exact .other h.1.1 (by simp [standsAlone, h.1.2, h.2]) .nil
  | case4 flag value args hawaits ih => exact .pair hawaits ih
  | case5 word next args hawaits h ih => exact .alone h ih
  | case6 word next args hawaits h ih => exact .other (by simpa using hawaits) (by simpa [standsAlone] using h) ih

namespace Cut

variable {args a b : List String} {gs as bs : List Group}

theorem groups_eq (h : Cut args gs) : groups args = gs := by
  induction h with
  | nil => rfl
  | alone hw _ ih => rw [groups_alone hw, ih]
  | pair hf _ ih => rw [groups, if_pos hf, ih]
  | lone hf => simp [groups, hf]
  | other hw hs _ ih => rw [groups_other hw hs, ih]

/-- Nothing is lost. -/
theorem words_eq (h : Cut args gs) : gs.flatMap Group.words = args := by
  induction h with
  | nil | lone => rfl
  | alone _ _ ih | pair _ _ ih | other _ _ _ ih => simp [ih]

theorem append (ha : Cut a as) (hwhole : NoneLacks as) (hb : Cut b bs) : Cut (a ++ b) (as ++ bs) := by
  induction ha with
  | nil => exact hb
  | lone hf => exact absurd hwhole (not_noneLacks hf List.mem_cons_self)
  | alone hw _ ih => exact .alone hw (ih (List.forall_mem_cons.1 hwhole).2)
  | pair hf _ ih => exact .pair hf (ih (List.forall_mem_cons.1 hwhole).2)
  | other hw hs _ ih => exact .other hw hs (ih (List.forall_mem_cons.1 hwhole).2)

/-- Each group is one by itself. -/
theorem single (h : Cut args gs) : ∀ g ∈ gs, Cut g.words [g] := by
  induction h with
  | nil => exact fun _ hg => nomatch hg
  | alone hw _ ih => exact List.forall_mem_cons.2 ⟨.alone hw .nil, ih⟩
  | pair hf _ ih => exact List.forall_mem_cons.2 ⟨.pair hf .nil, ih⟩
  | lone hf => exact List.forall_mem_singleton.2 (.lone hf)
  | other hw hs _ ih => exact List.forall_mem_cons.2 ⟨.other hw hs .nil, ih⟩

/-- Groups of which none lacks a value may be joined in any order. -/
theorem join (h : Cut args gs) (hwhole : NoneLacks gs) (hsub : as ⊆ gs) :
    Cut (as.flatMap Group.words) as := by
  induction as with
  | nil => exact .nil
  | cons g as ih =>
    obtain ⟨hg, has⟩ := List.cons_subset.1 hsub
    exact (h.single g hg).append (List.forall_mem_singleton.2 (hwhole g hg)) (ih has)

/-- The last of the arguments is an option without a value, and the only one. -/
def EndsLone (args : List String) (gs : List Group) : Prop :=
  ∃ a as flag, args = a ++ [flag] ∧ gs = as ++ [.global [flag]] ∧ Cut a as ∧ NoneLacks as ∧ awaitsValue flag

theorem whole_or_lone_cons {g : Group} (hone : Cut g.words [g]) (hg : g.isGlobal → g.isComplete)
    (h : NoneLacks gs ∨ EndsLone args gs) : NoneLacks (g :: gs) ∨ EndsLone (g.words ++ args) (g :: gs) := by
  rcases h with hwhole | ⟨a, as, flag, rfl, rfl, ha, hwhole, hflag⟩
  · exact .inl (hwhole.cons hg)
  · refine .inr ⟨g.words ++ a, g :: as, flag, (List.append_assoc ..).symm, rfl, ?_, hwhole.cons hg, hflag⟩
    exact hone.append (List.forall_mem_singleton.2 hg) ha

/-- Only the last argument can be an option without a value. -/
theorem whole_or_lone (h : Cut args gs) : NoneLacks gs ∨ EndsLone args gs := by
  induction h with
  | nil => exact .inl noneLacks_nil
  | lone hf => exact .inr ⟨[], [], _, rfl, rfl, .nil, noneLacks_nil, hf⟩
  | alone hw _ ih => exact whole_or_lone_cons (.alone hw .nil) (fun _ => hw) ih
  | pair hf _ ih => exact whole_or_lone_cons (.pair hf .nil) (fun _ => hf) ih
  | other hw hs _ ih => exact whole_or_lone_cons (.other hw hs .nil) (fun hg => nomatch hg) ih

end Cut

/-! ### Hoisting -/

@[simp] theorem globalWords_append (as bs : List Group) :
    globalWords (as ++ bs) = globalWords as ++ globalWords bs := by simp [globalWords]

@[simp] theorem otherWords_append (as bs : List Group) :
    otherWords (as ++ bs) = otherWords as ++ otherWords bs := by simp [otherWords]

section

variable {args a b : List String} {gs as bs : List Group}

theorem Cut.hoist_eq (h : Cut args gs) (program : String) :
    hoist (program :: args) = program :: (globalWords gs ++ otherWords gs) := by
  rw [hoist, h.groups_eq, List.flatMap_append]
  rfl

/-- Arguments in which the global groups come first stay as they are. -/
theorem Cut.hoist_eq_self (h : Cut args (as ++ bs)) (hglobal : ∀ g ∈ as, g.isGlobal)
    (hother : ∀ g ∈ bs, ¬ g.isGlobal) (program : String) : hoist (program :: args) = program :: args := by
  have hall : globalWords (as ++ bs) ++ otherWords (as ++ bs) = (as ++ bs).flatMap Group.words := by
    have hnone : as.filter (!Group.isGlobal ·) = [] := by simpa using hglobal
    have hnone' : bs.filter Group.isGlobal = [] := by simpa using hother
    have hsome : bs.filter (!Group.isGlobal ·) = bs := by simpa using hother
    simp [globalWords, otherWords, hnone, hnone', hsome, List.filter_eq_self.2 hglobal]
  rw [h.hoist_eq, hall, h.words_eq]

/-- Groups of which none lacks a value are the groups of the result as well. -/
theorem Cut.regroup (h : Cut args gs) (hwhole : NoneLacks gs) :
    Cut (globalWords gs ++ otherWords gs)
      (gs.filter Group.isGlobal ++ gs.filter (!Group.isGlobal ·)) := by
  rw [globalWords, otherWords, ← List.flatMap_append]
  exact h.join hwhole (List.append_subset.2 ⟨List.filter_subset_self gs, List.filter_subset_self gs⟩)

theorem NoneLacks.filter (hwhole : NoneLacks gs) (p : Group → Bool) : NoneLacks (gs.filter p) :=
  fun g hg => hwhole g (List.mem_of_mem_filter hg)

/-- An option at the end that has no value takes the first of the other words, if there is one. -/
theorem Cut.regroup_lone (h : Cut args gs) (hwhole : NoneLacks gs) {flag : String}
    (hflag : awaitsValue flag) :
    ∃ as bs, Cut (globalWords gs ++ flag :: otherWords gs) (as ++ bs) ∧ (∀ g ∈ as, g.isGlobal) ∧
      ∀ g ∈ bs, ¬ g.isGlobal := by
  have hfront : Cut (globalWords gs) (gs.filter Group.isGlobal) := h.join hwhole (List.filter_subset_self gs)
  have hglobal : ∀ g ∈ gs.filter Group.isGlobal, g.isGlobal := fun g hg => (List.mem_filter.1 hg).2
  have hall : gs.filter (!Group.isGlobal ·) ⊆ gs := List.filter_subset_self gs
  have hother : ∀ g ∈ gs.filter (!Group.isGlobal ·), ¬ g.isGlobal := by simp
  unfold otherWords
  -- what stands behind the option is the first word of the first group that is not global
  cases hrest : gs.filter (!Group.isGlobal ·) with
  | nil =>
    refine ⟨gs.filter Group.isGlobal ++ [.global [flag]], [], ?_, ?_, fun _ hg => nomatch hg⟩
    · rw [List.append_nil]
      exact hfront.append (hwhole.filter _) (.lone hflag)
    · exact List.forall_mem_append.2 ⟨hglobal, List.forall_mem_singleton.2 rfl⟩
  | cons g rest =>
    rw [hrest] at hall hother
    obtain ⟨hg, htail⟩ := List.forall_mem_cons.1 hother
    have hback := h.join hwhole (List.cons_subset.1 hall).2
    cases g with
    | global ws => exact absurd rfl hg
    | other word =>
      refine ⟨gs.filter Group.isGlobal ++ [.global [flag, word]], rest, ?_, ?_, htail⟩
      · rw [List.append_assoc]
        exact hfront.append (hwhole.filter _) (.pair hflag hback)
      · exact List.forall_mem_append.2 ⟨hglobal, List.forall_mem_singleton.2 rfl⟩

theorem Cut.hoist_concat (h : Cut args gs) (hwhole : NoneLacks gs) {flag : String}
    (hflag : awaitsValue flag) (program : String) :
    hoist (program :: (args ++ [flag])) = program :: (globalWords gs ++ flag :: otherWords gs) := by
  rw [(h.append hwhole (.lone hflag)).hoist_eq]
  simp [globalWords, otherWords, List.filter_cons]

theorem hoist_hoist (args : List String) : hoist (hoist args) = hoist args := by
  cases args with
  | nil => rfl
  | cons program args =>
    have h := cut_groups args
    rcases h.whole_or_lone with hwhole | ⟨a, as, flag, rfl, -, ha, hwhole, hflag⟩
    · -- the groups of the result are the same groups, in the order in which they would be hoisted
      rw [h.hoist_eq]
      exact (h.regroup hwhole).hoist_eq_self (fun g hg => (List.mem_filter.1 hg).2) (by simp) program
    · obtain ⟨bs, cs, hcut, hglobal, hother⟩ := ha.regroup_lone hwhole hflag
      rw [ha.hoist_concat hwhole hflag]
      exact hcut.hoist_eq_self hglobal hother program

theorem perm_hoist (args : List String) : (hoist args).Perm args := by
  cases args with
  | nil => exact .nil
  | cons program args =>
    have hwords := (cut_groups args).words_eq
    rw [hoist]
    refine .cons program ?_
    conv_rhs => rw [← hwords]
    exact (List.filter_append_perm Group.isGlobal _).flatMap_right _

/-- The complete global groups and the words besides them tell what comes out: an option without a value is one of
these words, and the only one of them that is an option. -/
theorem Cut.words_of_rest (h : Cut args gs) :
    globalWords gs = (gs.filter Group.isComplete).flatMap Group.words ++ (restWords gs).filter awaitsValue ∧
      otherWords gs = (restWords gs).filter (!awaitsValue ·) := by
  induction h with
  | nil => exact ⟨rfl, rfl⟩
  | lone hf => simp [globalWords, otherWords, restWords, List.filter_cons, not_standsAlone hf, hf]
  | alone hw _ ih | pair hw _ ih =>
    simpa [globalWords, otherWords, restWords, List.filter_cons, hw] using ih
  | other hw hs _ ih => simpa [globalWords, otherWords, restWords, List.filter_cons, hw] using ih

end

/-- Arguments fall into groups in one way only. The name of the program stays first, after it come the global
groups and then all else, each in the order in which they came in; an option at the very end, which no argument
follows, is a global group of its own. So nothing is lost or made up, and hoisting again changes nothing.
Arguments with the same complete global groups, and with the same words besides, come out the same wherever the
groups stand among the words. -/
theorem hoist_arranges :
    hoist [] = [] ∧
    (∀ args, ∃! gs, Cut args gs) ∧
    (∀ program args gs, Cut args gs → hoist (program :: args) = program ::
      ((gs.filter Group.isGlobal).flatMap Group.words ++
        (gs.filter (!Group.isGlobal ·)).flatMap Group.words)) ∧
    (∀ args, (hoist args).Perm args ∧ hoist (hoist args) = hoist args) ∧
    ∀ program args gs args' gs', Cut args gs → Cut args' gs' →
      gs.filter Group.isComplete = gs'.filter Group.isComplete →
      (gs.filter (!Group.isComplete ·)).flatMap Group.words =
        (gs'.filter (!Group.isComplete ·)).flatMap Group.words →
      hoist (program :: args) = hoist (program :: args') := by
  refine ⟨rfl, fun args => ?_, fun program args gs h => h.hoist_eq program,
    fun args => ⟨perm_hoist args, hoist_hoist args⟩, ?_⟩
  · exact ⟨groups args, cut_groups args, fun gs h => h.groups_eq.symm⟩
  · intro program args gs args' gs' h h' hcomplete hrest
    have hwords : restWords gs = restWords gs' := hrest
    obtain ⟨hglobal, hother⟩ := h.words_of_rest
    obtain ⟨hglobal', hother'⟩ := h'.words_of_rest
    calc hoist (program :: args) = program :: (globalWords gs ++ otherWords gs) := h.hoist_eq program
      _ = program :: (globalWords gs' ++ otherWords gs') := by
        rw [hglobal, hother, hcomplete, hwords, ← hglobal', ← hother']
      _ = hoist (program :: args') := (h'.hoist_eq program).symm

/-- An option whose value looks like a switch, and another that looks like two options, among the words of a
command and before them. -/
theorem hoist_arranges_interspersed :
    let among := ["ingest", "--config", "--json", "--log=--cwd", "-", "--json"]
    let before := ["--config", "--json", "ingest", "--log=--cwd", "--json", "-"]
    Cut among [.other "ingest", .global ["--config", "--json"], .global ["--log=--cwd"], .other "-",
        .global ["--json"]] ∧
      Cut before [.global ["--config", "--json"], .other "ingest", .global ["--log=--cwd"],
        .global ["--json"], .other "-"] ∧
      hoist ("stepwise" :: among) =
        ["stepwise", "--config", "--json", "--log=--cwd", "--json", "ingest", "-"] ∧
      hoist ("stepwise" :: among) = hoist ("stepwise" :: before) := by
  intro among before
  have hamong : Cut among _ := cut_groups among
  have hbefore : Cut before _ := cut_groups before
  obtain ⟨-, -, hwords, -, hsame⟩ := hoist_arranges
  refine ⟨hamong, hbefore, (hwords _ _ _ hamong).trans (by decide), ?_⟩
  exact hsame _ _ _ _ _ hamong hbefore (by decide) (by decide)

end StepTrace.Command
