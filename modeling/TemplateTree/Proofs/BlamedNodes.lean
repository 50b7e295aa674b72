import TemplateTree.Proofs.NormalTrees
import TemplateTree.Render

/-
  Errors that blame a node, and that node alone.

  Main declarations:
    * `Pass.FailsAt`
    * `Pass.exists_failsAt`
    * `Pass.BlamesItsNode.exists_blamed`
    * `Arg.Blaming`
    * `Arg.Blaming.exists_blamed`
    * `blamed_nodes_fail_alone`

  A pass refuses a node before it looks below it, or fails to
  change the node when all below it is done.  A walk that
  collects output fails at the first node or literal that it
  cannot take, after what stands before has been collected.
  Either way the blamed node is all that is needed to see the
  same error again.
-/

------------------------------------------------------------
-- Where A Pass Fails
------------------------------------------------------------

namespace TemplateTree

namespace Pass

variable {pass : Pass}

/-
  A pass fails at a node if it refuses its tag, or if it cannot
  change the node after its arguments.
-/
inductive FailsAt
    (pass : Pass)
    (node : Node) :
    CompileError → Prop where
| refusal
    (hRefuses : pass.refuses node.tag = true) :
    FailsAt pass node (pass.rejection node)
| change
    {args' : List Arg}
    {error : CompileError}
    (hAccepts : pass.refuses node.tag = false)
    (hArgs : pass.foldArgs node.args = .ok args')
    (hFinish : pass.finish node.tag args' = .error error) :
    FailsAt pass node error

/- Arguments fail if one of them does. -/
theorem exists_of_foldArgs_error
    {args : List Arg}
    {error : CompileError}
    (h : pass.foldArgs args = .error error) :
    ∃ arg ∈ args, pass.foldArg arg = .error error := by
  apply Except.exists_of_collected_error [] List.cons ?_ ?_ h
  · rw [foldArgs]
  · intro arg args
    rw [foldArgs]

/- A pass fails at its node, or below it. -/
theorem foldArg_node_eq_error
    {tag : Tag}
    {args : List Arg}
    {error : CompileError}
    (h : pass.foldArg (.node tag args) = .error error) :
    pass.FailsAt ⟨tag, args⟩ error ∨
      ∃ arg ∈ args, pass.foldArg arg = .error error := by
  rw [foldArg] at h
  cases hRefuses : pass.refuses tag with
  | true =>
      rw [if_pos hRefuses, Except.error.injEq] at h
      subst h
      exact Or.inl (.refusal hRefuses)
  | false =>
      simp only [hRefuses, Bool.false_eq_true, if_false,
        Except.map_eq_error_iff,
        Except.bind_eq_error_iff] at h
      rcases h with hArgs | ⟨args', hArgs, hFinish⟩
      · exact Or.inr (exists_of_foldArgs_error hArgs)
      · exact Or.inl (.change hRefuses hArgs hFinish)

/- If a pass fails on a tree, it fails at some node of it. -/
theorem exists_failsAt
    {error : CompileError}
    (arg : Arg) :
    pass.foldArg arg = .error error →
      ∃ node ∈ arg.nodes, pass.FailsAt node error := by
  induction arg using Arg.inductOn with
  | literal value =>
      intro h
      rw [foldArg] at h
      cases h
  | node tag args ih =>
      intro h
      rcases foldArg_node_eq_error h with
        hRoot | ⟨arg, hArg, hError⟩
      · exact ⟨_, Arg.mem_nodes_toArg ⟨tag, args⟩, hRoot⟩
      · rcases ih arg hArg hError with ⟨node, hNode, hFails⟩
        exact ⟨node, Arg.mem_nodes_of_mem hArg hNode, hFails⟩

theorem run_eq_error_of_foldArgs
    {tag : Tag}
    {args args' : List Arg}
    {error : CompileError}
    (hAccepts : pass.refuses tag = false)
    (hArgs : pass.foldArgs args = .ok args')
    (hFinish : pass.finish tag args' = .error error) :
    pass.run ⟨tag, args⟩ = .error error := by
  simp [run, hAccepts, hArgs, hFinish]

/- A pass that blames the node it was to change. -/
def BlamesItsNode (pass : Pass) : Prop :=
  ∀ (node : Node) (error : CompileError),
    pass.transform node = .error error →
      error.node? = some node

theorem BlamesItsNode.finish
    (hPass : pass.BlamesItsNode)
    {tag : Tag}
    {args : List Arg}
    {error : CompileError}
    (h : pass.finish tag args = .error error) :
    error.node? = some ⟨tag, args⟩ := by
  unfold Pass.finish at h
  split at h
  · exact hPass _ error h
  · cases h

/-
  The blamed node is one of the tree, with its arguments as
  they were or changed.  If what was changed stays as it is,
  the pass comes to the same node again and fails.
-/
theorem BlamesItsNode.exists_blamed
    (hPass : pass.BlamesItsNode)
    (hStable :
      ∀ arg arg',
        pass.foldArg arg = .ok arg' →
          pass.foldArg arg' = .ok arg')
    {tree : Node}
    {error : CompileError}
    (hRun : pass.run tree = .error error) :
    ∃ node ∈ tree.toArg.nodes,
      ∃ args,
        (args = node.args ∨
            pass.foldArgs node.args = .ok args) ∧
          error.node? = some ⟨node.tag, args⟩ ∧
          pass.run ⟨node.tag, args⟩ = .error error := by
  have hFold : pass.foldArg tree.toArg = .error error := by
    rw [foldArg_toArg, hRun]
    rfl
  rcases exists_failsAt tree.toArg hFold with
    ⟨node, hNode, hFails⟩
  refine ⟨node, hNode, ?_⟩
  cases hFails with
  | refusal hRefuses =>
      refine ⟨node.args, Or.inl rfl, rfl, ?_⟩
      rw [run, if_pos hRefuses]
  | @change args' _ hAccepts hArgs hFinish =>
      have hAgain : pass.foldArgs args' = .ok args' := by
        apply foldArgs_eq_self
        intro arg' hArg'
        rcases exists_of_mem_foldArgs hArgs hArg' with
          ⟨arg, -, hArg⟩
        exact hStable arg arg' hArg
      exact
        ⟨args', Or.inr hArgs, hPass.finish hFinish,
          run_eq_error_of_foldArgs hAccepts hAgain hFinish⟩

end Pass

------------------------------------------------------------
-- Lowering And Checking
------------------------------------------------------------

namespace ControlFlow

variable {passThrough : TagSet}

theorem pass_blamesItsNode :
    (pass passThrough).BlamesItsNode := by
  intro node error h
  rcases Except.mapError_eq_error_iff.mp h with
    ⟨fault, -, rfl⟩
  rfl

/- What was lowered is not lowered again. -/
theorem foldArg_lowered
    (arg arg' : Arg)
    (h : (pass passThrough).foldArg arg = .ok arg') :
    (pass passThrough).foldArg arg' = .ok arg' := by
  have hLowered :=
    brings_isLowered.foldArg arg arg' (fun _ _ => trivial) h
  apply Pass.foldArg_eq_self
  intro node hNode
  exact (hLowered node hNode).spares

end ControlFlow

namespace Validate

theorem pass_blamesItsNode : pass.BlamesItsNode := by
  intro node error h
  change check node = .error error at h
  unfold check at h
  split at h
  · cases h
  · cases h
    rfl

/- What was checked is as before. -/
theorem foldArg_checked
    (arg arg' : Arg)
    (h : pass.foldArg arg = .ok arg') :
    pass.foldArg arg' = .ok arg' := by
  have hSame := ((foldArg_eq_ok_iff arg arg').mp h).1
  rwa [hSame] at h ⊢

end Validate

------------------------------------------------------------
-- Where A Walk Fails
------------------------------------------------------------

/-
  A walk over arguments that knows the node they belong to.  A
  literal can only be blamed on that node.  A node is blamed
  itself, unless the walk fails at one of its arguments, and it
  does not matter what it belongs to.
-/
structure Arg.Blaming
    {α : Type}
    (walk : Node → Arg → Except CompileError α) : Prop where
  literal {parent : Node} {value : Literal}
      {error : CompileError} :
    walk parent (.literal value) = .error error →
      error.node? = some parent
  node {parent : Node} {tag : Tag} {args : List Arg}
      {error : CompileError} :
    walk parent (.node tag args) = .error error →
      error.node? = some ⟨tag, args⟩ ∨
        ∃ arg ∈ args, walk ⟨tag, args⟩ arg = .error error
  alone (parent parent' node : Node) :
    walk parent node.toArg = walk parent' node.toArg

namespace Arg

variable {α : Type}
variable {walk : Node → Arg → Except CompileError α}

/- A walk fails again on the node that it blames. -/
theorem Blaming.exists_blamed
    (hWalk : Blaming walk)
    {error : CompileError}
    (arg : Arg) :
    ∀ parent,
      walk parent arg = .error error →
        error.node? = some parent ∨
          ∃ node ∈ arg.nodes,
            error.node? = some node ∧
              walk node node.toArg = .error error := by
  induction arg using Arg.inductOn with
  | literal value =>
      intro parent h
      exact Or.inl (hWalk.literal h)
  | node tag args ih =>
      intro parent h
      right
      -- An error of the node comes back without its parent.
      have hRoot :
          error.node? = some ⟨tag, args⟩ →
            ∃ node ∈ (Arg.node tag args).nodes,
              error.node? = some node ∧
                walk node node.toArg = .error error := by
        intro hBlamed
        refine
          ⟨_, mem_nodes_toArg ⟨tag, args⟩, hBlamed, ?_⟩
        rw [hWalk.alone _ parent]
        exact h
      rcases hWalk.node h with hBlamed | ⟨arg, hArg, hError⟩
      · exact hRoot hBlamed
      · rcases ih arg hArg ⟨tag, args⟩ hError with
          hBlamed | ⟨node, hNode, hFails⟩
        · exact hRoot hBlamed
        · exact ⟨node, mem_nodes_of_mem hArg hNode, hFails⟩

/- On a whole tree, that is a node of the tree. -/
theorem Blaming.exists_blamed_of_tree
    (hWalk : Blaming walk)
    {tree : Node}
    {error : CompileError}
    (h : walk tree tree.toArg = .error error) :
    ∃ node ∈ tree.toArg.nodes,
      error.node? = some node ∧
        walk node node.toArg = .error error := by
  rcases hWalk.exists_blamed tree.toArg tree h with
    hBlamed | hBelow
  · exact ⟨tree, mem_nodes_toArg tree, hBlamed, h⟩
  · exact hBelow

end Arg

------------------------------------------------------------
-- Generating And Rendering
------------------------------------------------------------

namespace Piece

theorem Fault.node?_on
    (stage : String)
    (node : Node)
    (fault : Fault) :
    (fault.on stage node).node? = some node := by
  cases fault <;> rfl

/- Arguments have no pieces where one of them has none. -/
theorem exists_of_ofArgs_error
    {stage : String}
    {parent : Node}
    {args : List Arg}
    {error : CompileError}
    (h : ofArgs stage parent args = .error error) :
    ∃ arg ∈ args, ofArg stage parent arg = .error error := by
  apply Except.exists_of_collected_error [] (· ++ ·) ?_ ?_ h
  · rw [ofArgs]
  · intro arg args
    rw [ofArgs]

theorem ofArg_blaming
    (stage : String) :
    Arg.Blaming (ofArg stage) where
  literal := by
    intro parent value error h
    rw [ofArg, Except.error.injEq] at h
    rw [← h, Fault.node?_on]
  node := by
    intro parent tag args error h
    rw [ofArg] at h
    split at h
    · exact Or.inr (exists_of_ofArgs_error h)
    iterate 3
      · rcases Except.mapError_eq_error_iff.mp h with
          ⟨fault, -, rfl⟩
        exact Or.inl (Fault.node?_on _ _ _)
    · rw [Except.error.injEq] at h
      rw [← h, Fault.node?_on]
      exact Or.inl rfl
  alone := by
    intro parent parent' node
    rw [Node.toArg, ofArg, ofArg]

end Piece

namespace Render

theorem Fault.node?_on
    (node : Node)
    (fault : Fault) :
    (fault.on node).node? = some node := by
  cases fault <;> rfl

/- Arguments have no text where one of them has none. -/
theorem exists_of_renderArgs_error
    {bindings : Bindings}
    {parent : Node}
    {args : List Arg}
    {error : CompileError}
    (h : renderArgs bindings parent args = .error error) :
    ∃ arg ∈ args,
      renderArg bindings parent arg = .error error := by
  apply Except.exists_of_collected_error "" (· ++ ·) ?_ ?_ h
  · rw [renderArgs]
  · intro arg args
    rw [renderArgs]
    cases renderArg bindings parent arg with
    | error error => rfl
    | ok text => rfl

theorem renderArg_blaming
    (bindings : Bindings) :
    Arg.Blaming (renderArg bindings) where
  literal := by
    intro parent value error h
    rw [renderArg, Except.error.injEq] at h
    rw [← h, Fault.node?_on]
  node := by
    intro parent tag args error h
    rw [renderArg] at h
    split at h
    · exact Or.inr (exists_of_renderArgs_error h)
    iterate 2
      · rcases Except.mapError_eq_error_iff.mp h with
          ⟨fault, -, rfl⟩
        exact Or.inl (Fault.node?_on _ _)
    iterate 2
      · rw [Except.error.injEq] at h
        rw [← h, Fault.node?_on]
        exact Or.inl rfl
  alone := by
    intro parent parent' node
    rw [Node.toArg, renderArg, renderArg]

end Render

/-
  Each error of a run on a tree blames a node, and a run on
  that node alone gives the same error.  Where a run only reads
  the tree, the node is one of the tree.
-/
theorem blamed_nodes_fail_alone :
    (∀ (passThrough : TagSet) (tree : Node)
        (error : CompileError),
      (ControlFlow.pass passThrough).run tree =
          .error error →
        ∃ node,
          error.node? = some node ∧
            (ControlFlow.pass passThrough).run node =
              .error error) ∧
    (∀ (tree : Node) (error : CompileError),
      Validate.pass.run tree = .error error →
        ∃ node ∈ tree.toArg.nodes,
          error.node? = some node ∧
            Validate.pass.run node = .error error) ∧
    (∀ (g : Generator) (tree : Node) (error : CompileError),
      g.generate tree = .error error →
        ∃ node ∈ tree.toArg.nodes,
          error.node? = some node ∧
            g.generate node = .error error) ∧
    ∀ (bindings : Bindings) (tree : Node)
        (error : CompileError),
      Render.render bindings tree = .error error →
        ∃ node ∈ tree.toArg.nodes,
          error.node? = some node ∧
            Render.render bindings node = .error error := by
  refine ⟨?_, ?_, ?_, ?_⟩
  · intro passThrough tree error hRun
    rcases ControlFlow.pass_blamesItsNode.exists_blamed
        ControlFlow.foldArg_lowered hRun with
      ⟨node, -, args, -, hBlamed, hFails⟩
    exact ⟨_, hBlamed, hFails⟩
  · intro tree error hRun
    rcases Validate.pass_blamesItsNode.exists_blamed
        Validate.foldArg_checked hRun with
      ⟨node, hNode, args, hArgs, hBlamed, hFails⟩
    have hSame : args = node.args := by
      rcases hArgs with hSame | hFold
      · exact hSame
      · exact
          ((Validate.foldArgs_eq_ok_iff _ _).mp hFold).1
    subst hSame
    exact ⟨node, hNode, hBlamed, hFails⟩
  · intro g tree error hRun
    have hWalk := Piece.ofArg_blaming g.style.name
    rw [Generator.generate_eq, Except.map_eq_error_iff] at hRun
    rcases hWalk.exists_blamed_of_tree hRun with
      ⟨node, hNode, hBlamed, hFails⟩
    refine ⟨node, hNode, hBlamed, ?_⟩
    rw [Generator.generate_eq, Except.map_eq_error_iff]
    exact hFails
  · intro bindings tree error hRun
    exact
      (Render.renderArg_blaming bindings).exists_blamed_of_tree
        hRun

namespace BlankCondition

/- A loop in a condition without code, after a text. -/
def tree : Node :=
  Node.sequence
    [Node.static "a",
      ⟨Tag.cond,
        [Arg.text " ",
          .node Tag.loop
            [Arg.text "for x in xs",
              (Node.dynamic "x").toArg]]⟩]

/- The condition when its loop has been lowered. -/
def lowered : Node :=
  ⟨Tag.cond,
    [Arg.text " ",
      (Node.sequence
        [Node.block "for x in xs \x7b", Node.dynamic "x",
          Node.block "\x7d"]).toArg]⟩

def lowering : Pass := ControlFlow.pass NameMap.empty

def generator : Generator := ⟨.array, "parts"⟩

/- What is blamed for the condition is no node of the tree. -/
theorem blank_condition_fails_alone :
    (∃ error,
        lowering.run tree = .error error ∧
          error.node? = some lowered ∧
          lowered ∉ tree.toArg.nodes ∧
          lowering.run lowered = .error error) ∧
      (∃ error,
        Validate.pass.run tree = .error error ∧
          ∃ node ∈ tree.toArg.nodes,
            error.node? = some node ∧
              Validate.pass.run node = .error error) ∧
      (∃ error,
        generator.generate tree = .error error ∧
          ∃ node ∈ tree.toArg.nodes,
            error.node? = some node ∧
              generator.generate node = .error error) ∧
      ∃ error,
        Render.render NameMap.empty tree = .error error ∧
          ∃ node ∈ tree.toArg.nodes,
            error.node? = some node ∧
              Render.render NameMap.empty node =
                .error error := by
  rcases blamed_nodes_fail_alone with
    ⟨hLower, hCheck, hGenerate, hRender⟩
  refine ⟨?_, ?_, ?_, ?_⟩
  · have hRun :
        lowering.run tree =
          .error (.shape ControlFlow.name lowered
            (ControlFlow.Fault.noCode
              (Arg.text " ")).message) := rfl
    rcases hLower NameMap.empty tree _ hRun with
      ⟨node, hBlamed, hFails⟩
    cases hBlamed
    exact ⟨_, hRun, rfl, by decide, hFails⟩
  · exact ⟨_, rfl, hCheck tree _ rfl⟩
  · exact ⟨_, rfl, hGenerate generator tree _ rfl⟩
  · exact ⟨_, rfl, hRender NameMap.empty tree _ rfl⟩

end BlankCondition

end TemplateTree
