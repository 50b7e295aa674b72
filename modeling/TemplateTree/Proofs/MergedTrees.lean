import TemplateTree.Proofs.Exchange
import TemplateTree.Proofs.NormalTrees

/-
  Merged trees, run by run.

  Main declarations:
    * `MergeStatic.RunsMerged`
    * `MergeStatic.Merges`
    * `MergeStatic.SparesTexts.runsMerged_iff`
    * `MergeStatic.foldArg_eq_ok_iff`
    * `merging_joins_maximal_runs`

  A longest run of static texts in a sequence becomes one
  text, and what stands between such runs keeps its place.
  This is said here without the loop that merges them, and
  determines the result.
-/

------------------------------------------------------------
-- Runs
------------------------------------------------------------

namespace TemplateTree

namespace MergeStatic

/- A static node whose only argument is a text. -/
def IsMergeable (arg : Arg) : Prop :=
  ∃ text, arg = (Node.static text).toArg

/- Static nodes of some texts, in order. -/
def statics (texts : List String) : List Arg :=
  texts.map fun text => (Node.static text).toArg

/-
  Arguments of a sequence before and after merging.  A run of
  mergeable ones ends where no other follows, so it is as long
  as it can be.  The others are related one to one.
-/
inductive RunsMerged
    (related : Arg → Arg → Prop) :
    List Arg → List Arg → Prop where
| nil :
    RunsMerged related [] []
| kept
    {arg arg' : Arg}
    {args args' : List Arg}
    (hArg : ¬ IsMergeable arg)
    (hRelated : related arg arg')
    (hRest : RunsMerged related args args') :
    RunsMerged related (arg :: args) (arg' :: args')
| run
    {texts : List String}
    {args args' : List Arg}
    (hTexts : texts ≠ [])
    (hEnd : ∀ next ∈ args.head?, ¬ IsMergeable next)
    (hRest : RunsMerged related args args') :
    RunsMerged related (statics texts ++ args)
      ((Node.static (String.join texts)).toArg :: args')

/- A tree and what merging leaves of it. -/
inductive Merges : Arg → Arg → Prop where
| literal
    (value : Literal) :
    Merges (.literal value) (.literal value)
| sequence
    {args args' : List Arg}
    (hRuns : RunsMerged Merges args args') :
    Merges (.node CoreTag.sequence.name args)
      (.node CoreTag.sequence.name args')
| other
    {tag : Tag}
    {args args' : List Arg}
    (hTag : tag ≠ CoreTag.sequence.name)
    (hArgs : List.Forall₂ Merges args args') :
    Merges (.node tag args) (.node tag args')

theorem isMergeable_iff
    {arg : Arg} :
    IsMergeable arg ↔ ∃ text, staticText? arg = some text := by
  simp only [IsMergeable, staticText?_eq_some_iff]

theorem staticText?_eq_none_iff
    {arg : Arg} :
    staticText? arg = none ↔ ¬ IsMergeable arg := by
  rw [isMergeable_iff, Option.eq_none_iff_forall_ne_some,
    not_exists]

/- What is related for one argument is for all of them. -/
theorem RunsMerged.imp
    {related related' : Arg → Arg → Prop}
    {args args' : List Arg}
    (h : RunsMerged related args args')
    (hImp :
      ∀ arg ∈ args, ∀ arg',
        related arg arg' → related' arg arg') :
    RunsMerged related' args args' := by
  induction h with
  | nil => exact .nil
  | kept hArg hRelated hRest ih =>
      rw [List.forall_mem_cons] at hImp
      exact .kept hArg (hImp.1 _ hRelated) (ih hImp.2)
  | run hTexts hEnd hRest ih =>
      refine .run hTexts hEnd (ih ?_)
      intro arg hMem
      exact hImp arg (List.mem_append_right _ hMem)

------------------------------------------------------------
-- Merging By Runs
------------------------------------------------------------

/- The text of a run of texts, if there are any. -/
def runText : List String → Option String
| [] => none
| texts => some (String.join texts)

theorem runText_snoc
    (texts : List String)
    (text : String) :
    some ((runText texts).getD "" ++ text) =
      runText (texts ++ [text]) := by
  cases texts with
  | nil => simp [runText]
  | cons first rest => simp [runText, String.append_assoc]

/- A run of static texts is taken up whole. -/
theorem mergeFrom_statics
    (texts more : List String)
    (args : List Arg) :
    mergeFrom (runText texts) (statics more ++ args) =
      mergeFrom (runText (texts ++ more)) args := by
  induction more generalizing texts with
  | nil => simp [statics]
  | cons text more ih =>
      have hText :
          staticText? (Node.static text).toArg = some text :=
        staticText?_eq_some_iff.mpr rfl
      rw [statics, List.map_cons, List.cons_append, mergeFrom,
        hText]
      dsimp only
      rw [runText_snoc, ← statics, ih, List.append_assoc,
        List.singleton_append]

/- A run ends before an argument that is not mergeable. -/
theorem mergeFrom_eq_append
    (before : Option String)
    {args : List Arg}
    (hEnd : ∀ next ∈ args.head?, ¬ IsMergeable next) :
    mergeFrom before args = runArgs before ++ merge args := by
  cases args with
  | nil => simp [mergeFrom, merge, runArgs]
  | cons arg args =>
      have hArg : staticText? arg = none :=
        staticText?_eq_none_iff.mpr (hEnd arg rfl)
      simp [mergeFrom, merge, hArg, runArgs]

/-
  Relations between arguments that let static texts be and
  make none of others.
-/
structure SparesTexts
    (related : Arg → Arg → Prop) : Prop where
  static :
    ∀ text arg',
      related (Node.static text).toArg arg' ↔
        arg' = (Node.static text).toArg
  mergeable :
    ∀ arg arg',
      related arg arg' → IsMergeable arg' → IsMergeable arg

variable {related : Arg → Arg → Prop}

theorem SparesTexts.forall₂_statics
    (hSpares : SparesTexts related)
    (texts : List String) :
    List.Forall₂ related (statics texts) (statics texts) := by
  rw [statics, List.forall₂_map_left_iff,
    List.forall₂_map_right_iff, List.forall₂_same]
  intro text hText
  exact (hSpares.static text _).mpr rfl

/- Merged runs are those of arguments that were related. -/
theorem SparesTexts.exists_of_runsMerged
    (hSpares : SparesTexts related)
    {args args' : List Arg}
    (h : RunsMerged related args args') :
    ∃ middle,
      List.Forall₂ related args middle ∧
        merge middle = args' := by
  induction h with
  | nil => exact ⟨[], .nil, rfl⟩
  | @kept arg arg' args args' hArg hRelated hRest ih =>
      rcases ih with ⟨middle, hMiddle, rfl⟩
      refine ⟨arg' :: middle, .cons hRelated hMiddle, ?_⟩
      have hArg' : staticText? arg' = none := by
        rw [staticText?_eq_none_iff]
        exact mt (hSpares.mergeable arg arg' hRelated) hArg
      simp [merge, mergeFrom, hArg', runArgs]
  | @run texts args args' hTexts hEnd hRest ih =>
      rcases ih with ⟨middle, hMiddle, rfl⟩
      refine ⟨statics texts ++ middle,
        List.rel_append (hSpares.forall₂_statics texts)
          hMiddle, ?_⟩
      have hEnd' :
          ∀ next ∈ middle.head?, ¬ IsMergeable next := by
        cases hMiddle with
        | nil => simp
        | cons hFirst hMore =>
            intro next hNext
            cases hNext
            exact
              mt (hSpares.mergeable _ _ hFirst) (hEnd _ rfl)
      have hRun :
          runArgs (runText texts) =
            [(Node.static (String.join texts)).toArg] := by
        cases texts with
        | nil => exact absurd rfl hTexts
        | cons first rest => rfl
      have hMerge := mergeFrom_statics [] texts middle
      rw [List.nil_append, mergeFrom_eq_append _ hEnd',
        hRun] at hMerge
      exact hMerge

/-
  Merging leaves merged runs.  The texts that the loop has
  taken up stand before the arguments that follow.
-/
theorem SparesTexts.runsMerged_mergeFrom
    (hSpares : SparesTexts related)
    {args middle : List Arg}
    (h : List.Forall₂ related args middle)
    (texts : List String) :
    RunsMerged related (statics texts ++ args)
      (mergeFrom (runText texts) middle) := by
  induction h generalizing texts with
  | nil =>
      cases texts with
      | nil => exact .nil
      | cons first rest =>
          exact .run (List.cons_ne_nil _ _) (by simp) .nil
  | @cons arg arg' args middle hRelated hRest ih =>
      rw [mergeFrom]
      cases hText : staticText? arg' with
      | some text =>
          -- The argument was this text already, so it goes on
          -- with the run that was taken up.
          rw [staticText?_eq_some_iff] at hText
          rcases hSpares.mergeable arg arg' hRelated
              ⟨text, hText⟩ with
            ⟨text', rfl⟩
          rw [hSpares.static, hText] at hRelated
          dsimp only
          rw [runText_snoc, ← hRelated]
          have hRun := ih (texts ++ [text])
          rwa [statics, List.map_append, List.append_assoc]
            at hRun
      | none =>
          have hArg : ¬ IsMergeable arg := by
            rintro ⟨text, rfl⟩
            rw [hSpares.static] at hRelated
            rw [hRelated, staticText?_eq_some_iff.mpr rfl]
              at hText
            cases hText
          have hKept :
              RunsMerged related (arg :: args)
                (arg' :: mergeFrom none middle) :=
            .kept hArg hRelated (ih [])
          cases texts with
          | nil => exact hKept
          | cons first rest =>
              refine .run (List.cons_ne_nil _ _) ?_ hKept
              intro next hNext
              cases hNext
              exact hArg

/- Relating arguments and merging them merges their runs. -/
theorem SparesTexts.runsMerged_iff
    (hSpares : SparesTexts related)
    {args args' : List Arg} :
    RunsMerged related args args' ↔
      ∃ middle,
        List.Forall₂ related args middle ∧
          merge middle = args' := by
  constructor
  · exact hSpares.exists_of_runsMerged
  · rintro ⟨middle, hMiddle, rfl⟩
    exact hSpares.runsMerged_mergeFrom hMiddle []

------------------------------------------------------------
-- Trees
------------------------------------------------------------

theorem merges_literal_iff
    {value : Literal}
    {arg' : Arg} :
    Merges (.literal value) arg' ↔ .literal value = arg' := by
  constructor
  · intro h
    cases h
    rfl
  · rintro rfl
    exact .literal value

theorem merges_sequence_iff
    {args : List Arg}
    {arg' : Arg} :
    Merges (.node CoreTag.sequence.name args) arg' ↔
      ∃ args',
        RunsMerged Merges args args' ∧
          .node CoreTag.sequence.name args' = arg' := by
  constructor
  · intro h
    generalize hTag : CoreTag.sequence.name = tag at h
    cases h with
    | sequence hRuns => exact ⟨_, hRuns, rfl⟩
    | other hOther hArgs => exact absurd hTag.symm hOther
  · rintro ⟨args', hRuns, rfl⟩
    exact .sequence hRuns

theorem merges_other_iff
    {tag : Tag}
    (hTag : tag ≠ CoreTag.sequence.name)
    {args : List Arg}
    {arg' : Arg} :
    Merges (.node tag args) arg' ↔
      ∃ args',
        List.Forall₂ Merges args args' ∧
          .node tag args' = arg' := by
  constructor
  · intro h
    cases h with
    | sequence hRuns => exact absurd rfl hTag
    | other hOther hArgs => exact ⟨_, hArgs, rfl⟩
  · rintro ⟨args', hArgs, rfl⟩
    exact .other hTag hArgs

/- A sequence is merged after its arguments. -/
theorem foldArg_sequence_eq_ok_iff
    {args : List Arg}
    {arg' : Arg} :
    pass.foldArg (.node CoreTag.sequence.name args) =
        .ok arg' ↔
      ∃ middle,
        pass.foldArgs args = .ok middle ∧
          .node CoreTag.sequence.name (merge middle) =
            arg' :=
  Pass.foldArg_finished_eq_ok_iff (accepts _) finish_sequence

theorem foldArg_other_eq_ok_iff
    {tag : Tag}
    (hTag : tag ≠ CoreTag.sequence.name)
    {args : List Arg}
    {arg' : Arg} :
    pass.foldArg (.node tag args) = .ok arg' ↔
      ∃ args',
        pass.foldArgs args = .ok args' ∧
          .node tag args' = arg' :=
  Pass.foldArg_finished_eq_ok_iff (accepts _)
    (finish_other hTag)

/- Walking a tree spares the texts that can be merged. -/
theorem sparesTexts_foldArg :
    SparesTexts fun arg arg' => pass.foldArg arg = .ok arg' := by
  have hNe : CoreTag.static.name ≠ CoreTag.sequence.name := by
    decide
  constructor
  · intro text arg'
    have hSpares :
        (Node.static text).toArg.Everywhere pass.Spares :=
      Arg.everywhere_ofText_iff.mpr
        (isMerged_of_tag_ne hNe).spares
    rw [Pass.foldArg_eq_self _ hSpares, Except.ok.injEq,
      eq_comm]
  · rintro arg arg' hFold ⟨text, rfl⟩
    cases arg with
    | literal value =>
        rw [Pass.foldArg] at hFold
        cases hFold
    | node tag args =>
        by_cases hTag : tag = CoreTag.sequence.name
        · subst hTag
          rcases foldArg_sequence_eq_ok_iff.mp hFold with
            ⟨middle, -, hEq⟩
          exact absurd (Arg.node.inj hEq).1.symm hNe
        · rcases (foldArg_other_eq_ok_iff hTag).mp hFold with
            ⟨args', hArgs, hEq⟩
          rcases Arg.node.inj hEq with ⟨rfl, rfl⟩
          have hSame := Pass.asLiteral?_of_foldArgs hArgs
          have hText : args = [Arg.text text] :=
            Arg.map_asLiteral?_eq_text_iff.mp hSame
          exact ⟨text, by rw [hText]; rfl⟩

/- The pass merges a tree run by run, and in no other way. -/
theorem foldArg_eq_ok_iff
    (arg : Arg) :
    ∀ arg',
      pass.foldArg arg = .ok arg' ↔ Merges arg arg' := by
  induction arg using Arg.inductOn with
  | literal value =>
      intro arg'
      rw [Pass.foldArg, Except.ok.injEq, merges_literal_iff]
  | node tag args ih =>
      intro arg'
      by_cases hTag : tag = CoreTag.sequence.name
      · subst hTag
        have hRuns (args' : List Arg) :
            RunsMerged Merges args args' ↔
              ∃ middle,
                pass.foldArgs args = .ok middle ∧
                  merge middle = args' := by
          simp only [Pass.foldArgs_eq_ok_iff]
          rw [← sparesTexts_foldArg.runsMerged_iff]
          constructor
          · intro h
            exact h.imp fun arg hArg arg' =>
              (ih arg hArg arg').mpr
          · intro h
            exact h.imp fun arg hArg arg' =>
              (ih arg hArg arg').mp
        rw [foldArg_sequence_eq_ok_iff, merges_sequence_iff]
        simp only [hRuns]
        constructor
        · rintro ⟨middle, hArgs, rfl⟩
          exact ⟨_, ⟨middle, hArgs, rfl⟩, rfl⟩
        · rintro ⟨_, ⟨middle, hArgs, rfl⟩, rfl⟩
          exact ⟨middle, hArgs, rfl⟩
      · rw [foldArg_other_eq_ok_iff hTag,
          merges_other_iff hTag]
        apply exists_congr
        intro args'
        rw [Pass.foldArgs_eq_ok_iff,
          List.forall₂_congr_of_mem ih]

theorem pass_neverFails : pass.NeverFails where
  accepts := accepts
  transform := fun _ => ⟨_, rfl⟩

theorem brings_isMerged :
    pass.Brings (fun _ => True) IsMerged := by
  have hStatic :
      CoreTag.static.name ≠ CoreTag.sequence.name := by
    decide
  apply brings
  · intro text
    exact isMerged_of_tag_ne hStatic
  · intro args hSeparate
    exact fun _ => hSeparate
  · intro tag args args' hTag hLiterals hForm
    exact isMerged_of_tag_ne hTag

end MergeStatic

/-
  Merging succeeds on every tree.  Its result is the only tree
  in which each longest run of static texts in a sequence has
  become their concatenation, and all else is in its place.
  No two static texts are next to each other in a sequence of
  it, and a second run changes nothing.
-/
theorem merging_joins_maximal_runs
    (tree : Node) :
    ∃ merged,
      MergeStatic.pass.run tree = .ok merged ∧
        (∀ arg,
          MergeStatic.Merges tree.toArg arg ↔
            arg = merged.toArg) ∧
        (∀ node ∈ merged.toArg.nodes,
          node.tag = CoreTag.sequence.name →
            ∀ before first second after,
              node.args = before ++ first :: second :: after →
                ¬ (MergeStatic.IsMergeable first ∧
                  MergeStatic.IsMergeable second)) ∧
        MergeStatic.pass.run merged = .ok merged := by
  rcases MergeStatic.pass_neverFails.run tree with
    ⟨merged, hRun⟩
  have hMerged :=
    MergeStatic.brings_isMerged.run (fun _ _ => trivial) hRun
  refine ⟨merged, hRun, ?_, ?_, ?_⟩
  · intro arg
    rw [← MergeStatic.foldArg_eq_ok_iff,
      Pass.run_eq_ok_iff.mp hRun, Except.ok.injEq, eq_comm]
  · rintro node hNode hTag before first second after hArgs
      ⟨hFirst, hSecond⟩
    have hPair :=
      List.isChain_iff_forall_rel_of_append_cons_cons.mp
        (hMerged node hNode hTag) hArgs
    rw [MergeStatic.staticText?_eq_none_iff,
      MergeStatic.staticText?_eq_none_iff] at hPair
    exact hPair.elim (absurd hFirst) (absurd hSecond)
  · apply Pass.run_eq_self
    intro node hNode
    exact (hMerged node hNode).spares

end TemplateTree
