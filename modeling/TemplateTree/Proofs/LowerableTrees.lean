import TemplateTree.Proofs.NormalTrees

/-
  Trees whose control flow can be lowered.

  Main declarations:
    * `ControlFlow.IsHeaded`
    * `ControlFlow.IsLowerable`
    * `ControlFlow.exists_lowerIf_iff`
    * `ControlFlow.pass_takes`
    * `lowering_takes_lowerable_trees`

  A tag is refused before the arguments of its node are seen,
  and a condition or a loop only after they were lowered.  As
  lowering keeps the literals among them and their number, a
  tree is taken or not by what it was at first.
-/

------------------------------------------------------------
-- Well Formed Conditions And Loops
------------------------------------------------------------

namespace TemplateTree

namespace ControlFlow

/- A text that is not just white space. -/
def IsCode (text : String) : Prop :=
  ∃ c ∈ text.toList, Text.isBlank c = false

/- Arguments of which the first is code and the rest nodes. -/
def IsHeaded (args : List Arg) : Prop :=
  ∃ code branches,
    args = Arg.text code :: branches ∧
      IsCode code ∧ ∀ branch ∈ branches, branch.isNode = true

/-
  A node of a known tag, which is well formed if it is a
  condition or a loop.
-/
structure IsLowerable
    (passThrough : TagSet)
    (node : Node) : Prop where
  known :
    Tag.isCore node.tag = true ∨
      passThrough.contains node.tag = true ∨
        node.tag = Tag.cond ∨ node.tag = Tag.loop
  cond :
    node.tag = Tag.cond →
      (node.args.length = 2 ∨ node.args.length = 3) ∧
        IsHeaded node.args
  loop :
    node.tag = Tag.loop →
      node.args.length = 2 ∧ IsHeaded node.args

theorem isCode_iff
    {text : String} :
    IsCode text ↔ Text.trim text ≠ "" := by
  simp [IsCode, Text.trim_eq_empty_iff]

theorem exists_condition_iff
    {arg : Arg} :
    (∃ code, condition arg = .ok code) ↔
      ∃ text, arg = Arg.text text ∧ IsCode text := by
  simp only [condition_eq_ok_iff, isCode_iff]
  constructor
  · rintro ⟨_, text, hArg, rfl, hCode⟩
    exact ⟨text, hArg, hCode⟩
  · rintro ⟨text, hArg, hCode⟩
    exact ⟨_, text, hArg, rfl, hCode⟩

theorem exists_branch_iff
    {arg : Arg} :
    (∃ node, branch arg = .ok node) ↔ arg.isNode = true := by
  cases arg with
  | literal value => simp [branch, Arg.asNode?, Arg.isNode]
  | node tag args => simp [branch, Arg.asNode?, Arg.isNode]

/- What is asked of the first argument and of the others. -/
theorem isHeaded_cons_iff
    {arg : Arg}
    {branches : List Arg} :
    IsHeaded (arg :: branches) ↔
      (∃ code, condition arg = .ok code) ∧
        ∀ other ∈ branches, ∃ node, branch other = .ok node := by
  simp only [exists_condition_iff, exists_branch_iff]
  constructor
  · rintro ⟨code, _, hArgs, hCode, hNodes⟩
    cases hArgs
    exact ⟨⟨code, rfl, hCode⟩, hNodes⟩
  · rintro ⟨⟨code, rfl, hCode⟩, hNodes⟩
    exact ⟨code, branches, rfl, hCode, hNodes⟩

------------------------------------------------------------
-- Lowering
------------------------------------------------------------

/- A condition is lowered if it has a branch or two. -/
theorem exists_lowerIf_iff
    {args : List Arg} :
    (∃ node, lowerIf args = .ok node) ↔
      (args.length = 2 ∨ args.length = 3) ∧
        IsHeaded args := by
  unfold lowerIf
  split
  · next test body =>
      simp [isHeaded_cons_iff, Except.bind_eq_ok_iff,
        Except.map_eq_ok_iff]
  · next test body other =>
      simp [isHeaded_cons_iff, Except.bind_eq_ok_iff,
        Except.map_eq_ok_iff]
  · next hTwo hThree =>
      constructor
      · rintro ⟨node, hError⟩
        cases hError
      · rintro ⟨hLength | hLength, -⟩
        · rcases List.length_eq_two.mp hLength with
            ⟨test, body, hArgs⟩
          exact (hTwo test body hArgs).elim
        · rcases List.length_eq_three.mp hLength with
            ⟨test, body, other, hArgs⟩
          exact (hThree test body other hArgs).elim

/- A loop is lowered if it has a body. -/
theorem exists_lowerLoop_iff
    {args : List Arg} :
    (∃ node, lowerLoop args = .ok node) ↔
      args.length = 2 ∧ IsHeaded args := by
  unfold lowerLoop
  split
  · next header body =>
      simp [isHeaded_cons_iff, Except.bind_eq_ok_iff,
        Except.map_eq_ok_iff]
  · next hTwo =>
      constructor
      · rintro ⟨node, hError⟩
        cases hError
      · rintro ⟨hLength, -⟩
        rcases List.length_eq_two.mp hLength with
          ⟨header, body, hArgs⟩
        exact (hTwo header body hArgs).elim

theorem isNode_iff_asLiteral?
    {arg : Arg} :
    arg.isNode = true ↔ arg.asLiteral? = none := by
  cases arg with
  | literal value =>
      simp [Arg.isNode, Arg.asNode?, Arg.asLiteral?]
  | node tag args =>
      simp [Arg.isNode, Arg.asNode?, Arg.asLiteral?]

theorem eq_text_iff_asLiteral?
    {arg : Arg}
    {text : String} :
    arg = Arg.text text ↔
      arg.asLiteral? = some (.text text) := by
  cases arg with
  | literal value => simp [Arg.text, Arg.asLiteral?]
  | node tag args => simp [Arg.text, Arg.asLiteral?]

/- The literals among arguments tell whether they are headed. -/
theorem isHeaded_iff_literals
    {args : List Arg} :
    IsHeaded args ↔
      ∃ code rest,
        args.map Arg.asLiteral? = some (.text code) :: rest ∧
          IsCode code ∧ ∀ literal? ∈ rest, literal? = none := by
  simp only [IsHeaded, isNode_iff_asLiteral?,
    List.map_eq_cons_iff]
  constructor
  · rintro ⟨code, branches, rfl, hCode, hNodes⟩
    refine ⟨code, branches.map Arg.asLiteral?,
      ⟨_, branches, rfl, rfl, rfl⟩, hCode, ?_⟩
    simpa using hNodes
  · rintro ⟨code, _, ⟨arg, branches, rfl, hArg, rfl⟩, hCode,
      hNodes⟩
    refine ⟨code, branches, ?_, hCode, ?_⟩
    · rw [eq_text_iff_asLiteral?.mpr hArg]
    · simpa using hNodes

/-
  Conditions and loops are judged by the literals and the
  number of their arguments, which stay as they are.
-/
theorem IsLowerable.congr
    {passThrough : TagSet}
    {tag : Tag}
    {args args' : List Arg}
    (hSame :
      args.map Arg.asLiteral? = args'.map Arg.asLiteral?)
    (h : IsLowerable passThrough ⟨tag, args⟩) :
    IsLowerable passThrough ⟨tag, args'⟩ := by
  have hLength : args.length = args'.length := by
    simpa only [List.length_map] using
      congrArg List.length hSame
  have hHeaded : IsHeaded args ↔ IsHeaded args' := by
    rw [isHeaded_iff_literals, hSame, ← isHeaded_iff_literals]
  refine ⟨h.known, ?_, ?_⟩
  · intro hTag
    rw [← hLength, ← hHeaded]
    exact h.cond hTag
  · intro hTag
    rw [← hLength, ← hHeaded]
    exact h.loop hTag

------------------------------------------------------------
-- Trees
------------------------------------------------------------

variable {passThrough : TagSet}

/- One node is taken if it is lowerable. -/
theorem isLowerable_iff
    {tag : Tag}
    {args : List Arg} :
    IsLowerable passThrough ⟨tag, args⟩ ↔
      (pass passThrough).refuses tag = false ∧
        ∃ node,
          (pass passThrough).finish tag args = .ok node := by
  have hNe : Tag.cond ≠ Tag.loop := by decide
  by_cases hCond : tag = Tag.cond
  · subst hCond
    have hAccepts :
        (pass passThrough).refuses Tag.cond = false := rfl
    simp only [finish_cond, exists_lowerIf_iff, hAccepts,
      true_and]
    constructor
    · intro h
      exact h.cond rfl
    · intro h
      exact ⟨by simp, fun _ => h, fun hLoop => absurd hLoop hNe⟩
  · by_cases hLoop : tag = Tag.loop
    · subst hLoop
      have hAccepts :
          (pass passThrough).refuses Tag.loop = false := rfl
      simp only [finish_loop, exists_lowerLoop_iff, hAccepts,
        true_and]
      constructor
      · intro h
        exact h.loop rfl
      · intro h
        exact
          ⟨by simp, fun hCond => absurd hCond.symm hNe,
            fun _ => h⟩
    · rw [refuses_eq_false_iff hCond hLoop]
      simp only [finish_other hCond hLoop]
      constructor
      · intro h
        refine ⟨?_, _, rfl⟩
        simpa [hCond, hLoop] using h.known
      · rintro ⟨hKnown, -⟩
        refine ⟨?_, ?_, ?_⟩
        · exact hKnown.imp_right Or.inl
        · exact fun h => absurd h hCond
        · exact fun h => absurd h hLoop

theorem pass_takes :
    (pass passThrough).Takes (IsLowerable passThrough) := by
  intro tag args args' hSame
  rw [← isLowerable_iff]
  exact ⟨IsLowerable.congr hSame, IsLowerable.congr hSame.symm⟩

end ControlFlow

/-
  Lowering succeeds exactly on the trees in which each tag is
  core, passed through or one of control flow, each condition
  has code and one or two branches, and each loop has code and
  a body.  It leaves neither conditions nor loops, even if
  these are to be passed through, and no tag that is neither
  core nor passed through.  A second run changes nothing.
-/
theorem lowering_takes_lowerable_trees
    (passThrough : TagSet)
    (tree : Node) :
    ((∃ lowered,
        (ControlFlow.pass passThrough).run tree =
          .ok lowered) ↔
      ∀ node ∈ tree.toArg.nodes,
        ControlFlow.IsLowerable passThrough node) ∧
    ∀ lowered,
      (ControlFlow.pass passThrough).run tree = .ok lowered →
        (∀ node ∈ lowered.toArg.nodes,
          node.tag ≠ Tag.cond ∧
            node.tag ≠ Tag.loop ∧
            (Tag.isCore node.tag = true ∨
              passThrough.contains node.tag = true)) ∧
        (ControlFlow.pass passThrough).run lowered =
          .ok lowered := by
  refine ⟨ControlFlow.pass_takes.exists_run_iff, ?_⟩
  intro lowered hRun
  have hLowered :=
    ControlFlow.brings_isLowered.run (fun _ _ => trivial) hRun
  constructor
  · intro node hNode
    have hForm := hLowered node hNode
    exact ⟨hForm.cond, hForm.loop, hForm.known⟩
  · apply Pass.run_eq_self
    intro node hNode
    exact (hLowered node hNode).spares

namespace PassedCondition

/- A loop over a condition and an element. -/
def tree : Node :=
  ⟨Tag.loop,
    [Arg.text "for item in items",
      (⟨Tag.cond,
        [Arg.text " item ", .node "element" []]⟩ :
          Node).toArg]⟩

/- Conditions are to be passed through, as elements are. -/
def passThrough : TagSet := TagSet.ofList [Tag.cond, "element"]

theorem passed_condition_is_lowered :
    (∀ node ∈ tree.toArg.nodes,
      ControlFlow.IsLowerable passThrough node) ∧
      ∃ lowered,
        (ControlFlow.pass passThrough).run tree = .ok lowered ∧
          (∀ node ∈ lowered.toArg.nodes,
            node.tag ≠ Tag.cond ∧ node.tag ≠ Tag.loop) ∧
          (ControlFlow.pass passThrough).run lowered =
            .ok lowered := by
  have hRun :
      ∃ lowered,
        (ControlFlow.pass passThrough).run tree = .ok lowered :=
    ⟨_, rfl⟩
  rcases lowering_takes_lowerable_trees passThrough tree with
    ⟨hTaken, hLowered⟩
  refine ⟨hTaken.mp hRun, ?_⟩
  rcases hRun with ⟨lowered, hRun⟩
  rcases hLowered lowered hRun with ⟨hTags, hAgain⟩
  refine ⟨lowered, hRun, ?_, hAgain⟩
  intro node hNode
  exact ⟨(hTags node hNode).1, (hTags node hNode).2.1⟩

end PassedCondition

end TemplateTree
