import StepTrace.Command.Run
import StepTrace.Proofs.Command.Hoisting

/-!
Options of the whole program keep their values when they are brought to the front. An option at the end that no
argument follows is at the end still if there is nothing but such options, and then the arguments are refused; but
if there are other words as well, it comes to stand before these and takes the first of them as its value.
-/
namespace StepTrace.Command

/-! ### What is given -/

namespace Given

variable {g g' : Given} {slot : Slot} {flags : List Flag} {name : String}

/-- While an option waits for its value nothing can be settled. -/
theorem settle_of_pending (h : g.pending = some (slot, none)) :
    g.settle = .error (.missingValue slot.name) := by
  rw [settle, h]

/-- An option that takes a value waits for it. -/
theorem pending_flag_of_takes {f : Flag} {takes : String × ValueKind}
    (hfind : flags.find? (fun f => f.name == name) = some f) (htakes : f.value = some takes)
    (h : g.flag flags name none = .ok g') : ∃ slot, g'.pending = some (slot, none) := by
  simp only [flag, hfind, htakes] at h
  cases hsettle : g.settle with
  | error e =>
    rw [hsettle] at h
    cases h
  | ok s =>
    rw [hsettle] at h
    cases h
    exact ⟨_, rfl⟩

/-- No option can come while another waits for its value. -/
theorem flag_of_pending {value : Option String} (h : g.pending = some (slot, none)) :
    g.flag flags name value ≠ .ok g' := by
  unfold flag
  rw [settle_of_pending h]
  split
  · exact fun h => nomatch h
  · split <;> exact fun h => nomatch h

theorem operand_of_pending {operand? : Option Operand} {word : String} (h : g.pending = some (slot, none)) :
    g.operand operand? word = .error (.missingValue slot.name) := by
  rw [operand, settle_of_pending h]
  rfl

end Given

/-! ### Words -/

/-- Words that are commands. -/
def commandWords : List String := helpName :: Name.all.map Name.text

theorem not_mem_commandWords {word : String} (h : word.toList.head? = some '-') : word ∉ commandWords := by
  have hall : ∀ c ∈ commandWords, c.toList.head? ≠ some '-' := by decide
  exact fun hmem => hall word hmem h

/-- An option of the whole program whose value is the next argument, as it is read. -/
theorem ofText_of_awaitsValue {word : String} (h : awaitsValue word) :
    word ∉ commandWords ∧ ∃ name f takes, Word.ofText word = .long name none ∧ name ≠ "help" ∧
      globalFlags.find? (fun f => f.name == name) = some f ∧ f.value = some takes := by
  obtain rfl | rfl | rfl := awaitsValue_iff.1 h
  · exact ⟨by decide, "config", _, _, by decide, by decide, rfl, rfl⟩
  · exact ⟨by decide, "cwd", _, _, by decide, by decide, rfl, rfl⟩
  · exact ⟨by decide, "log", _, _, by decide, by decide, rfl, rfl⟩

/-- An option with its value in one word. -/
theorem ofText_assignment {word name : String} {value : List Char} (hempty : name.toList ≠ [])
    (hname : '=' ∉ name.toList) (h : word.toList = '-' :: '-' :: (name.toList ++ '=' :: value)) :
    Word.ofText word = .long name (some (String.ofList value)) := by
  have htake : (name.toList ++ '=' :: value).takeWhile (· ≠ '=') = name.toList := by
    have hall : ∀ c ∈ name.toList, decide (c ≠ '=') := by
      intro c hc
      exact decide_eq_true fun he => hname (he ▸ hc)
    rw [List.takeWhile_append_of_pos hall]
    simp
  have hdrop : ((name.toList ++ '=' :: value).drop name.toList.length).tail? = some value := by
    rw [List.drop_left]
    rfl
  obtain ⟨c, cs, hcs⟩ := List.exists_cons_of_ne_nil hempty
  rw [Word.ofText, h]
  rw [hcs, List.cons_append] at htake hdrop ⊢
  simp only [htake, hdrop]
  rw [← hcs, String.ofList_toList]
  rfl

/-- A word that is a complete global group, as it is read. -/
theorem ofText_of_standsAlone {word : String} (h : standsAlone word) :
    word ∉ commandWords ∧ ∃ name value, Word.ofText word = .long name value ∧ name ≠ "help" := by
  rcases Bool.or_eq_true _ _ ▸ h with h | h
  · obtain rfl : word = "--json" := by simpa [isGlobalSwitch] using h
    exact ⟨by decide, "json", none, by decide, by decide⟩
  · obtain ⟨start, hstart, hprefix⟩ := List.any_eq_true.1 h
    obtain ⟨rest, hrest⟩ := List.isPrefixOf_iff_prefix.1 hprefix
    have hname : ∃ name : String, name ≠ "help" ∧ name.toList ≠ [] ∧ '=' ∉ name.toList ∧
        start.toList = '-' :: '-' :: (name.toList ++ ['=']) := by
      simp only [List.mem_cons, List.not_mem_nil, or_false] at hstart
      obtain rfl | rfl | rfl := hstart
      · exact ⟨"config", by decide⟩
      · exact ⟨"cwd", by decide⟩
      · exact ⟨"log", by decide⟩
    obtain ⟨name, hhelp, hempty, heq, htext⟩ := hname
    have hword : word.toList = '-' :: '-' :: (name.toList ++ '=' :: rest) := by
      rw [← hrest, htext, List.cons_append, List.cons_append, List.append_assoc, List.singleton_append]
    exact ⟨not_mem_commandWords (by rw [hword]; rfl), name, some (String.ofList rest),
      ofText_assignment hempty heq hword, hhelp⟩

/-! ### Reading -/

/-- Reading comes to a fault, at once or when the option is checked that waits at the end. -/
def IsRefused (r : Except UsageFault (Given × Stop)) : Prop :=
  ∀ g stop, r = .ok (g, stop) → stop = .done ∧ ∃ slot, g.pending = some (slot, none)

/-- Reads options of the whole program, up to a command. -/
abbrev readGlobals (g : Given) (words : List String) : Except UsageFault (Given × Stop) :=
  readWords globalFlags none commandWords g words

section

variable {g : Given} {word : String} {rest : List String}

theorem readGlobals_long {name : String} {value : Option String} (hcommand : word ∉ commandWords)
    (h : Word.ofText word = .long name value) (hname : name ≠ "help") (rest : List String) :
    readGlobals g (word :: rest) = g.flag globalFlags name value >>= fun g => readGlobals g rest := by
  have hno : (g.awaiting?.isNone && commandWords.contains word) = false := by simp [hcommand]
  rw [readGlobals, readWords, hno, h]
  simp [hname]

theorem isRefused_error (e : UsageFault) : IsRefused (.error e) := fun _ _ h => nomatch h

theorem isRefused_bind {α : Type} {x : Except UsageFault α} {f : α → Except UsageFault (Given × Stop)}
    (h : ∀ a, x = .ok a → IsRefused (f a)) : IsRefused (x >>= f) := by
  cases x with
  | error e => exact isRefused_error e
  | ok a => exact h a rfl

theorem isRefused_alone (hword : standsAlone word) (h : ∀ g, IsRefused (readGlobals g rest)) (g : Given) :
    IsRefused (readGlobals g (word :: rest)) := by
  obtain ⟨hcommand, name, value, htext, hhelp⟩ := ofText_of_standsAlone hword
  rw [readGlobals_long hcommand htext hhelp]
  exact isRefused_bind fun g' _ => h g'

theorem isRefused_flag (hword : awaitsValue word)
    (h : ∀ (g : Given) slot, g.pending = some (slot, none) → IsRefused (readGlobals g rest)) (g : Given) :
    IsRefused (readGlobals g (word :: rest)) := by
  obtain ⟨hcommand, name, f, takes, htext, hhelp, hfind, htakes⟩ := ofText_of_awaitsValue hword
  rw [readGlobals_long hcommand htext hhelp]
  refine isRefused_bind fun g' hg' => ?_
  obtain ⟨slot, hslot⟩ := Given.pending_flag_of_takes hfind htakes hg'
  exact h g' slot hslot

/-- What follows an option that waits is its value, or a fault. -/
theorem isRefused_value {slot : Slot} (hslot : g.pending = some (slot, none))
    (h : ∀ g, IsRefused (readGlobals g rest)) : IsRefused (readGlobals g (word :: rest)) := by
  have hawaiting : g.awaiting? = some slot := by rw [Given.awaiting?, hslot]
  have hsettle := Given.settle_of_pending hslot
  rw [readGlobals, readWords, hawaiting]
  simp only [Option.isNone_some, Bool.false_and, Bool.false_eq_true, if_false]
  split
  · cases rest with
    | nil =>
      intro g' stop hread
      cases hread
      exact ⟨rfl, slot, hslot⟩
    | cons next rest =>
      rw [readOperands, Given.operand_of_pending hslot]
      exact isRefused_error _
  · rw [hsettle]
    exact isRefused_error _
  · exact isRefused_error _
  · exact isRefused_bind fun g' hg' => absurd hg' (Given.flag_of_pending hslot)
  · rw [hsettle]
    exact isRefused_error _
  · exact isRefused_error _
  · exact h _

end

/-- Nothing but options of the whole program, the last of them without its value. -/
theorem Cut.isRefused {a : List String} {as : List Group} (h : Cut a as) (hwhole : NoneLacks as)
    (hglobal : ∀ g ∈ as, g.isGlobal) {flag : String} (hflag : awaitsValue flag) (g : Given) :
    IsRefused (readGlobals g (a ++ [flag])) := by
  induction h generalizing g with
  | nil =>
    refine isRefused_flag hflag (fun g' slot hslot => ?_) g
    intro g'' stop hread
    cases hread
    exact ⟨rfl, slot, hslot⟩
  | lone hf => exact absurd hwhole (not_noneLacks hf List.mem_cons_self)
  | alone hword _ ih =>
    exact isRefused_alone hword (ih (List.forall_mem_cons.1 hwhole).2 (List.forall_mem_cons.1 hglobal).2) g
  | pair hword _ ih =>
    refine isRefused_flag hword (fun g' slot hslot => isRefused_value hslot ?_) g
    exact ih (List.forall_mem_cons.1 hwhole).2 (List.forall_mem_cons.1 hglobal).2
  | other => exact absurd (hglobal _ List.mem_cons_self) (by simp)

/-- A fault of the arguments is told, and nothing else is done. -/
theorem run_of_isRefused {args : List String} (h : IsRefused (readGlobals {} ((hoist args).drop 1)))
    (s : Setting) : ∃ fault : UsageFault, run s args = (s.disk, { code := 2, err := fault.text }) := by
  have hrequest : ∃ fault, request args = .error fault := by
    unfold request read
    cases hread : readGlobals {} ((hoist args).drop 1) with
    | error fault =>
      refine ⟨fault, ?_⟩
      change readGlobals {} ((hoist args).drop 1) >>= _ = _
      rw [hread]
      rfl
    | ok result =>
      obtain ⟨g, stop⟩ := result
      obtain ⟨rfl, slot, hslot⟩ := h g stop hread
      refine ⟨.missingValue slot.name, ?_⟩
      change readGlobals {} ((hoist args).drop 1) >>= _ = _
      rw [hread]
      change g.settle >>= _ = _
      rw [Given.settle_of_pending hslot]
      rfl
  obtain ⟨fault, hfault⟩ := hrequest
  exact ⟨fault, by rw [run, hfault]⟩

/-! ### Options and their values -/

/-- What comes before an option without a value. -/
theorem Cut.before_lone {args : List String} {as : List Group} {flag : String}
    (h : Cut args (as ++ [.global [flag]])) (hflag : awaitsValue flag) :
    ∃ a, args = a ++ [flag] ∧ Cut a as ∧ NoneLacks as := by
  rcases h.whole_or_lone with hwhole | ⟨a, as', flag', rfl, hgs, ha, hwhole, -⟩
  · exact absurd hwhole (not_noneLacks hflag (List.mem_append_right as List.mem_cons_self))
  · obtain ⟨rfl, hlast⟩ := List.append_inj' hgs rfl
    cases hlast
    exact ⟨a, rfl, ha, hwhole⟩

theorem isGlobal_of_otherWords {gs : List Group} (h : otherWords gs = []) : ∀ g ∈ gs, g.isGlobal := by
  intro g hg
  cases g with
  | global ws => rfl
  | other word =>
    have hmem : Group.other word ∈ gs.filter (!Group.isGlobal ·) := List.mem_filter.2 ⟨hg, rfl⟩
    exact absurd (List.flatMap_eq_nil_iff.1 h _ hmem) (List.cons_ne_nil _ _)

/-- Global groups alone stay as they are. -/
theorem Cut.hoist_of_global {args : List String} {gs : List Group} (h : Cut args gs)
    (hglobal : ∀ g ∈ gs, g.isGlobal) (program : String) : hoist (program :: args) = program :: args := by
  have hcut : Cut args (gs ++ []) := (List.append_nil gs).symm ▸ h
  exact hcut.hoist_eq_self hglobal (fun _ hg => nomatch hg) program

/-- An option of the whole program that an argument follows is followed by the same argument when it is brought to the
front: before them come the global groups before it, and after them the global groups after it and all other words.
An option at the end comes after all other global groups and before all other words; if there are none, nothing
follows it, and the program refuses the arguments and does nothing else. If no option is without a value, or if
there are no other words, the arguments that come out fall into the same groups. -/
theorem hoist_keeps_values (program : String) {args : List String} {gs : List Group} (hcut : Cut args gs) :
    (∀ as flag value bs, gs = as ++ .global [flag, value] :: bs →
      args = as.flatMap Group.words ++ flag :: value :: bs.flatMap Group.words ∧
      hoist (program :: args) = program :: (globalWords as ++ flag :: value ::
        (globalWords bs ++ (otherWords as ++ otherWords bs)))) ∧
    (∀ as flag, gs = as ++ [.global [flag]] → awaitsValue flag →
      hoist (program :: args) = program :: (globalWords as ++ flag :: otherWords as) ∧
      (otherWords as = [] → hoist (program :: args) = program :: args ∧
        ∀ s, ∃ fault : UsageFault,
          run s (program :: args) = (s.disk, { code := 2, err := fault.text }))) ∧
    (NoneLacks gs ∨ otherWords gs = [] →
      Cut ((hoist (program :: args)).drop 1)
        (gs.filter Group.isGlobal ++ gs.filter (!Group.isGlobal ·))) := by
  refine ⟨fun as flag value bs hgs => ?_, fun as flag hgs hflag => ?_, fun hkeep => ?_⟩
  · subst hgs
    refine ⟨by rw [← hcut.words_eq]; simp, ?_⟩
    rw [hcut.hoist_eq]
    simp [globalWords, otherWords, List.filter_cons]
  · subst hgs
    obtain ⟨a, rfl, ha, hwhole⟩ := hcut.before_lone hflag
    have hhoist := ha.hoist_concat hwhole hflag program
    refine ⟨hhoist, fun hnone => ?_⟩
    have hglobal : ∀ g ∈ as, g.isGlobal := isGlobal_of_otherWords hnone
    have hself := hcut.hoist_of_global
      (List.forall_mem_append.2 ⟨hglobal, List.forall_mem_singleton.2 rfl⟩) program
    refine ⟨hself, run_of_isRefused ?_⟩
    rw [hself]
    exact ha.isRefused hwhole hglobal hflag {}
  · rcases hkeep with hwhole | hnone
    · rw [hcut.hoist_eq]
      exact hcut.regroup hwhole
    · have hglobal := isGlobal_of_otherWords hnone
      have hrest : gs.filter (!Group.isGlobal ·) = [] := by simpa using hglobal
      rw [hcut.hoist_of_global hglobal, List.filter_eq_self.2 hglobal, hrest, List.append_nil]
      exact hcut

/-- An option with a value that looks like a switch, among the words of a command; and options alone, one of them with
a value that is the name of a command, and the last without a value. -/
theorem hoist_keeps_values_like_options :
    let args := ["ingest", "--cwd", "--json", "-", "--log=x"]
    let lone := ["--json", "--config", "ingest", "--log"]
    Cut args [.other "ingest", .global ["--cwd", "--json"], .other "-", .global ["--log=x"]] ∧
      hoist ("stepwise" :: args) = ["stepwise", "--cwd", "--json", "--log=x", "ingest", "-"] ∧
      Cut ["--cwd", "--json", "--log=x", "ingest", "-"]
        [.global ["--cwd", "--json"], .global ["--log=x"], .other "ingest", .other "-"] ∧
      Cut lone [.global ["--json"], .global ["--config", "ingest"], .global ["--log"]] ∧
      hoist ("stepwise" :: lone) = "stepwise" :: lone ∧
      ∀ s, ∃ fault : UsageFault,
        run s ("stepwise" :: lone) = (s.disk, { code := 2, err := fault.text }) := by
  intro args lone
  have hargs : Cut args _ := cut_groups args
  have hlone : Cut lone _ := cut_groups lone
  obtain ⟨hvalues, -, hgroups⟩ := hoist_keeps_values "stepwise" hargs
  obtain ⟨-, hlast, -⟩ := hoist_keeps_values "stepwise" hlone
  obtain ⟨hsame, hrefused⟩ := (hlast [.global ["--json"], .global ["--config", "ingest"]] "--log" rfl rfl).2 rfl
  refine ⟨hargs, (hvalues [.other "ingest"] "--cwd" "--json" _ rfl).2, ?_, hlone, hsame, hrefused⟩
  exact hgroups (.inl (by decide))

/-- The name of a command that becomes the value of an option, so that its operand becomes the command. -/
theorem command_taken_as_value :
    hoist ["stepwise", "ingest", "version", "--log"] = ["stepwise", "--log", "ingest", "version"] ∧
      request ["stepwise", "ingest", "version", "--log"] =
        .ok (.task ⟨⟨defaultConfig⟩, none, false⟩ .version) := ⟨rfl, rfl⟩

end StepTrace.Command
