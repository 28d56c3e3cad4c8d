import Mathlib.Data.List.SplitBy
import StepTrace.Proofs.Store.Write

/-!
How a name becomes the name of a directory. The characters of a name fall into runs that are either safe or
unsafe; a safe run stays, and an unsafe one becomes an underscore. So a name can be cut next to any safe
character, and the parts can be taken for themselves.
-/
namespace StepTrace.Store

/-! ### Parts of a name -/

/-- Whether a run of unsafe characters is under way after these characters. -/
def runAfter (inRun : Bool) (cs : List Char) : Bool := (cs.getLast?.map isUnsafe).getD inRun

theorem runAfter_cons (inRun : Bool) (c : Char) (cs : List Char) :
    runAfter inRun (c :: cs) = runAfter (isUnsafe c) cs := by
  cases cs with
  | nil => rfl
  | cons d cs => simp [runAfter, List.getLast?_cons]

theorem collapse_append (inRun : Bool) (cs ds : List Char) :
    collapse inRun (cs ++ ds) = collapse inRun cs ++ collapse (runAfter inRun cs) ds := by
  induction cs generalizing inRun with
  | nil => rfl
  | cons c cs ih =>
    rw [runAfter_cons, List.cons_append]
    cases hc : isUnsafe c with
    | false => simp [collapse, hc, ih]
    | true => cases inRun <;> simp [collapse, hc, ih]

/-- Before a safe character it does not matter whether a run was under way. -/
theorem collapse_of_safe {ds : List Char} (h : ∀ c ∈ ds.head?, isUnsafe c = false) (inRun : Bool) :
    collapse inRun ds = collapse false ds := by
  cases ds with
  | nil => rfl
  | cons c ds => simp [collapse, h c rfl]

theorem collapse_eq_self {cs : List Char} (h : ∀ c ∈ cs, isUnsafe c = false) (inRun : Bool) :
    collapse inRun cs = cs := by
  induction cs generalizing inRun with
  | nil => rfl
  | cons c cs ih =>
    obtain ⟨hc, hcs⟩ := List.forall_mem_cons.1 h
    simp [collapse, hc, ih hcs]

theorem collapse_eq_nil {cs : List Char} (h : ∀ c ∈ cs, isUnsafe c = true) : collapse true cs = [] := by
  induction cs with
  | nil => rfl
  | cons c cs ih =>
    obtain ⟨hc, hcs⟩ := List.forall_mem_cons.1 h
    simp [collapse, hc, ih hcs]

theorem collapse_ne_nil {cs : List Char} (h : cs ≠ []) : collapse false cs ≠ [] := by
  cases cs with
  | nil => exact absurd rfl h
  | cons c cs => cases hc : isUnsafe c <;> simp [collapse, hc]

/-! ### Runs -/

/-- The longest stretches of characters that are all safe or all unsafe. -/
def runs (cs : List Char) : List (List Char) := cs.splitBy fun c d => isUnsafe c == isUnsafe d

/-- An unsafe run becomes an underscore. -/
def squeeze (run : List Char) : List Char := if run.all isUnsafe then ['_'] else run

theorem collapse_run {c : Char} {cs : List Char} (h : ∀ d ∈ cs, isUnsafe d = isUnsafe c) :
    collapse false (c :: cs) = squeeze (c :: cs) := by
  cases hc : isUnsafe c with
  | false =>
    have hsafe : ∀ d ∈ c :: cs, isUnsafe d = false := List.forall_mem_cons.2 ⟨hc, fun d hd => hc ▸ h d hd⟩
    simp [collapse_eq_self hsafe, squeeze, hc]
  | true =>
    have hunsafe : ∀ d ∈ cs, isUnsafe d = true := fun d hd => hc ▸ h d hd
    have hall : (c :: cs).all isUnsafe := List.all_eq_true.2 (List.forall_mem_cons.2 ⟨hc, hunsafe⟩)
    rw [squeeze, if_pos hall]
    simp [collapse, hc, collapse_eq_nil hunsafe]

/-- Runs in which the characters are alike, and which differ where they meet, are replaced one by one. -/
theorem collapse_flatten {gs : List (List Char)} (nonempty : ∀ g ∈ gs, g ≠ [])
    (alike : ∀ g ∈ gs, g.Pairwise fun c d => isUnsafe c = isUnsafe d)
    (apart : gs.IsChain fun g g' => ∃ h h', isUnsafe (g.getLast h) ≠ isUnsafe (g'.head h')) :
    collapse false gs.flatten = gs.flatMap squeeze := by
  induction gs with
  | nil => rfl
  | cons g gs ih =>
    obtain ⟨hg, hne⟩ := List.forall_mem_cons.1 nonempty
    obtain ⟨halike, hrest⟩ := List.forall_mem_cons.1 alike
    have hrun : collapse false g = squeeze g := by
      obtain ⟨c, cs, rfl⟩ := List.exists_cons_of_ne_nil hg
      exact collapse_run fun d hd => ((List.pairwise_cons.1 halike).1 d hd).symm
    -- an unsafe run is over where the next one starts
    have hover : collapse (runAfter false g) gs.flatten = collapse false gs.flatten := by
      cases gs with
      | nil => rfl
      | cons g' gs =>
        obtain ⟨⟨hlast, hhead, hdiffer⟩, -⟩ := List.isChain_cons_cons.1 apart
        have hu : runAfter false g = isUnsafe (g.getLast hlast) := by
          simp [runAfter, List.getLast?_eq_some_getLast hlast]
        cases hsafe : runAfter false g with
        | false => rfl
        | true =>
          refine collapse_of_safe (fun c hc => ?_) true
          rw [List.flatten_cons, List.head?_append_of_ne_nil _ hhead, List.head?_eq_some_head hhead] at hc
          cases hc
          rw [← hu, hsafe] at hdiffer
          simpa using hdiffer.symm
    rw [List.flatten_cons, List.flatMap_cons, collapse_append, hrun, hover, ih hne hrest apart.tail]

theorem collapse_eq_flatMap_runs (cs : List Char) : collapse false cs = (runs cs).flatMap squeeze := by
  have alike : ∀ g ∈ runs cs, g.Pairwise fun c d => isUnsafe c = isUnsafe d := by
    intro g hg
    have htrans : Trans (fun c d => isUnsafe c = isUnsafe d) (fun c d => isUnsafe c = isUnsafe d)
        (fun c d => isUnsafe c = isUnsafe d) := ⟨Eq.trans⟩
    refine List.isChain_iff_pairwise.1 ((List.isChain_of_mem_splitBy hg).imp fun c d h => ?_)
    simpa using h
  have apart : (runs cs).IsChain fun g g' =>
      ∃ h h', isUnsafe (g.getLast h) ≠ isUnsafe (g'.head h') := by
    refine (List.isChain_getLast_head_splitBy _ cs).imp fun g g' h => ?_
    obtain ⟨hlast, hhead, hdiffer⟩ := h
    exact ⟨hlast, hhead, by simpa using hdiffer⟩
  calc
    collapse false cs = collapse false (runs cs).flatten := by rw [runs, List.flatten_splitBy]
    _ = (runs cs).flatMap squeeze :=
      collapse_flatten (fun g hg => List.ne_nil_of_mem_splitBy hg) alike apart

/-! ### Names of directories -/

theorem segment_of_ne_empty {name : String} (h : name ≠ "") :
    segment name = String.ofList (collapse false name.toList) := by
  have hne : collapse false name.toList ≠ [] :=
    collapse_ne_nil fun hn => h (String.toList_injective hn)
  unfold segment
  split
  · next hnil => exact absurd hnil hne
  · rfl

/-- The name of a directory stays as it is. -/
theorem segment_segment_eq (name : String) : segment (segment name) = segment name := by
  rw [segment_of_ne_empty (isName_segment name).ne_empty, collapse_eq_self fun c hc => mem_segment hc]
  exact String.ofList_toList

theorem filter_sublist_collapse (inRun : Bool) (cs : List Char) :
    (cs.filter (!isUnsafe ·)).Sublist (collapse inRun cs) := by
  induction cs generalizing inRun with
  | nil => exact List.Sublist.refl []
  | cons c cs ih =>
    cases hc : isUnsafe c with
    | false => simpa [collapse, hc] using ih false
    | true => cases inRun <;> simp [collapse, hc, ih, List.Sublist.cons]

/-- Next to a safe character a name can be cut. -/
theorem segment_append {name other : String} (hname : name ≠ "") (hother : other ≠ "")
    (h : (∃ c ∈ name.toList.getLast?, isUnsafe c = false) ∨ ∃ c ∈ other.toList.head?, isUnsafe c = false) :
    segment (name ++ other) = segment name ++ segment other := by
  have hne : name ++ other ≠ "" := fun he => hname (String.append_eq_empty_iff.1 he).1
  have hover : collapse (runAfter false name.toList) other.toList = collapse false other.toList := by
    rcases h with ⟨c, hc, hsafe⟩ | ⟨c, hc, hsafe⟩
    · have hend : runAfter false name.toList = false := by
        rw [runAfter, Option.mem_def.1 hc]
        exact hsafe
      rw [hend]
    · refine collapse_of_safe (fun d hd => ?_) _
      cases (Option.mem_def.1 hc).symm.trans hd
      exact hsafe
  rw [segment_of_ne_empty hne, segment_of_ne_empty hname, segment_of_ne_empty hother,
    String.toList_append, collapse_append, hover, String.ofList_append]

/-- The name of a directory is not empty and holds no unsafe character. It is the given name with an underscore
in the place of every unsafe run, or a single underscore; all safe characters are there in their order, and it
is the name of a directory for itself. Of two names one after the other, with a safe character where they meet,
each can be taken for itself. -/
theorem segment_eq_of_runs (name : String) :
    (segment name ≠ "" ∧ ∀ c ∈ (segment name).toList, isUnsafe c = false) ∧
      segment name = (if name = "" then "_" else String.ofList ((runs name.toList).flatMap squeeze)) ∧
      (name.toList.filter (!isUnsafe ·)).Sublist (segment name).toList ∧
      segment (segment name) = segment name ∧
      ∀ other, name ≠ "" → other ≠ "" →
        ((∃ c ∈ name.toList.getLast?, isUnsafe c = false) ∨
          ∃ c ∈ other.toList.head?, isUnsafe c = false) →
        segment (name ++ other) = segment name ++ segment other := by
  refine ⟨⟨(isName_segment name).ne_empty, fun c hc => mem_segment hc⟩, ?_, ?_, segment_segment_eq name,
    fun other => segment_append⟩
  · split
    · next h => rw [h]; rfl
    · next h => rw [segment_of_ne_empty h, collapse_eq_flatMap_runs]
  · by_cases h : name = ""
    · simp [h]
    · rw [segment_of_ne_empty h, String.toList_ofList]
      exact filter_sublist_collapse false name.toList

/-- A run at the start, one of two characters after an underscore, a dot, and a control character at the end. -/
example : segment "/a_: b.c\x7f" = "_a__b_c_" := by decide +kernel

end StepTrace.Store
