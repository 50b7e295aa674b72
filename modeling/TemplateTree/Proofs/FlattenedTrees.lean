import TemplateTree.Proofs.FilterOrder

/-
  Flattened trees.

  Main declarations:
    * `Arg.reached`
    * `Flatten.IsFlat`
    * `Flatten.flatten_cases`
    * `Flatten.brings_isFlat`
    * `Flatten.foldArgs_reached`
    * `flattening_reaches_normal_form`
    * `flattening_keeps_programs`

  Only one level is spliced at each node.  It is enough since
  a sequence below has been flattened already, so that none of
  its arguments is a sequence, whether it is still one or was
  unwrapped.
-/

------------------------------------------------------------
-- What Sequences Hold
------------------------------------------------------------

namespace TemplateTree

namespace Arg

/- A nested sequence. -/
def IsSequence (arg : Arg) : Prop :=
  ∃ args, arg = .node CoreTag.sequence.name args

mutual

/-
  What is reached from an argument through sequences alone:
  the first arguments on the way that are no sequences.
-/
def reached : Arg → List Arg
| .literal value => [.literal value]
| .node tag args =>
    if tag = CoreTag.sequence.name then reachedOf args
    else [.node tag args]

/- What is reached from arguments, in order. -/
def reachedOf : List Arg → List Arg
| [] => []
| arg :: args => reached arg ++ reachedOf args

end

theorem reachedOf_eq_flatMap
    (args : List Arg) :
    reachedOf args = args.flatMap reached := by
  induction args with
  | nil => rw [reachedOf, List.flatMap_nil]
  | cons arg args ih =>
      rw [reachedOf, ih, List.flatMap_cons]

theorem reached_sequence
    (args : List Arg) :
    reached (.node CoreTag.sequence.name args) =
      args.flatMap reached := by
  rw [reached, if_pos rfl, reachedOf_eq_flatMap]

theorem not_isSequence_literal
    (value : Literal) :
    ¬ IsSequence (.literal value) := by
  rintro ⟨args, hArg⟩
  cases hArg

theorem isSequence_node_iff
    {tag : Tag}
    {args : List Arg} :
    IsSequence (.node tag args) ↔
      tag = CoreTag.sequence.name := by
  simp [IsSequence]

theorem isSequence_toArg_iff
    {node : Node} :
    node.toArg.IsSequence ↔
      node.tag = CoreTag.sequence.name :=
  isSequence_node_iff

/- What is no sequence is reached at once. -/
theorem reached_eq_singleton
    {arg : Arg}
    (hArg : ¬ arg.IsSequence) :
    arg.reached = [arg] := by
  cases arg with
  | literal value => rw [reached]
  | node tag args =>
      rw [isSequence_node_iff] at hArg
      rw [reached, if_neg hArg]

end Arg

------------------------------------------------------------
-- Flattening One Node
------------------------------------------------------------

namespace Flatten

theorem splice_sequence
    (args : List Arg) :
    splice (.node CoreTag.sequence.name args) = args := by
  rw [splice, if_pos rfl]

theorem splice_eq_singleton
    {arg : Arg}
    (hArg : ¬ arg.IsSequence) :
    splice arg = [arg] := by
  cases arg with
  | literal value => rw [splice]
  | node tag args =>
      rw [Arg.isSequence_node_iff] at hArg
      rw [splice, if_neg hArg]

/- Without nested sequences there is nothing to splice. -/
theorem flatMap_splice_eq_self
    {args : List Arg}
    (hArgs : ∀ arg ∈ args, ¬ arg.IsSequence) :
    args.flatMap splice = args := by
  induction args with
  | nil => rfl
  | cons arg args ih =>
      rw [List.forall_mem_cons] at hArgs
      rw [List.flatMap_cons, splice_eq_singleton hArgs.1,
        ih hArgs.2, List.singleton_append]

/-
  A sequence is replaced by the only node that is left in it,
  or it stays and holds what was spliced.
-/
theorem flatten_cases
    (unwrapSingle : Bool)
    (args : List Arg) :
    (∃ child : Node,
        unwrapSingle = true ∧
          args.flatMap splice = [child.toArg] ∧
          flatten unwrapSingle
              ⟨CoreTag.sequence.name, args⟩ = child) ∨
      ((unwrapSingle = true →
          ∀ child : Node,
            args.flatMap splice ≠ [child.toArg]) ∧
        flatten unwrapSingle ⟨CoreTag.sequence.name, args⟩ =
          ⟨CoreTag.sequence.name, args.flatMap splice⟩) := by
  unfold flatten
  dsimp only
  split
  · next tag inner hArgs =>
      cases unwrapSingle with
      | true =>
          left
          exact ⟨⟨tag, inner⟩, rfl, hArgs, rfl⟩
      | false =>
          right
          exact ⟨by simp, rfl⟩
  · next hMany =>
      right
      refine ⟨?_, rfl⟩
      intro hUnwrap child hArgs
      exact hMany child.tag child.args hArgs

/- No tag is refused. -/
theorem accepts
    (unwrapSingle : Bool)
    (tag : Tag) :
    (pass unwrapSingle).refuses tag = false :=
  (pass_neverFails unwrapSingle).accepts tag

theorem finish_sequence
    (unwrapSingle : Bool)
    (args : List Arg) :
    (pass unwrapSingle).finish CoreTag.sequence.name args =
      .ok (flatten unwrapSingle
        ⟨CoreTag.sequence.name, args⟩) := rfl

theorem finish_other
    (unwrapSingle : Bool)
    {tag : Tag}
    (hTag : tag ≠ CoreTag.sequence.name)
    (args : List Arg) :
    (pass unwrapSingle).finish tag args =
      .ok ⟨tag, args⟩ := by
  simp [Pass.finish, pass, hTag]

------------------------------------------------------------
-- Flat Nodes
------------------------------------------------------------

/-
  A node that is no sequence with a nested sequence, nor, if
  single nodes are unwrapped, one of a single node.
-/
structure IsFlat
    (unwrapSingle : Bool)
    (node : Node) : Prop where
  spliced :
    node.tag = CoreTag.sequence.name →
      ∀ arg ∈ node.args, ¬ arg.IsSequence
  unwrapped :
    unwrapSingle = true →
      node.tag = CoreTag.sequence.name →
        ∀ child : Node, node.args ≠ [child.toArg]

variable {unwrapSingle : Bool}

theorem isFlat_of_tag_ne
    {node : Node}
    (hTag : node.tag ≠ CoreTag.sequence.name) :
    IsFlat unwrapSingle node where
  spliced := fun hSequence => absurd hSequence hTag
  unwrapped := fun _ hSequence => absurd hSequence hTag

/- What is spliced from a flat tree is flat, and no sequence. -/
theorem flat_of_mem_splice
    {arg part : Arg}
    (hArg : arg.Everywhere (IsFlat unwrapSingle))
    (hPart : part ∈ splice arg) :
    ¬ part.IsSequence ∧
      part.Everywhere (IsFlat unwrapSingle) := by
  by_cases hSequence : arg.IsSequence
  · rcases hSequence with ⟨args, rfl⟩
    rw [splice_sequence] at hPart
    rw [Arg.everywhere_node_iff] at hArg
    exact ⟨hArg.1.spliced rfl part hPart, hArg.2 part hPart⟩
  · rw [splice_eq_singleton hSequence, List.mem_singleton]
      at hPart
    subst hPart
    exact ⟨hSequence, hArg⟩

theorem flat_of_mem_flatMap_splice
    {args : List Arg}
    {part : Arg}
    (hArgs :
      ∀ arg ∈ args, arg.Everywhere (IsFlat unwrapSingle))
    (hPart : part ∈ args.flatMap splice) :
    ¬ part.IsSequence ∧
      part.Everywhere (IsFlat unwrapSingle) := by
  rcases List.mem_flatMap.mp hPart with ⟨arg, hArg, hSplice⟩
  exact flat_of_mem_splice (hArgs arg hArg) hSplice

/- So is the only node that is spliced. -/
theorem flat_of_flatMap_splice_eq
    {args : List Arg}
    {child : Node}
    (hArgs :
      ∀ arg ∈ args, arg.Everywhere (IsFlat unwrapSingle))
    (hSingle : args.flatMap splice = [child.toArg]) :
    ¬ child.toArg.IsSequence ∧
      child.toArg.Everywhere (IsFlat unwrapSingle) := by
  apply flat_of_mem_flatMap_splice hArgs
  rw [hSingle]
  exact List.mem_singleton_self child.toArg

/- Flattening leaves flat nodes only. -/
theorem brings_isFlat :
    (pass unwrapSingle).Brings (fun _ => True)
      (IsFlat unwrapSingle) := by
  intro tag args args' node hForm hAccepts hLiterals hArgs
    hFinish
  by_cases hTag : tag = CoreTag.sequence.name
  · subst hTag
    rw [finish_sequence, Except.ok.injEq] at hFinish
    subst hFinish
    rcases flatten_cases unwrapSingle args' with
      ⟨child, hUnwrap, hSingle, hFlat⟩ | ⟨hMany, hFlat⟩
    · rw [hFlat]
      exact (flat_of_flatMap_splice_eq hArgs hSingle).2
    · rw [hFlat]
      refine Arg.everywhere_toArg_iff.mpr ⟨⟨?_, ?_⟩, ?_⟩
      · intro hSequence part hPart
        exact (flat_of_mem_flatMap_splice hArgs hPart).1
      · intro hUnwrap hSequence
        exact hMany hUnwrap
      · intro part hPart
        exact (flat_of_mem_flatMap_splice hArgs hPart).2
  · rw [finish_other unwrapSingle hTag, Except.ok.injEq]
      at hFinish
    subst hFinish
    exact Arg.everywhere_toArg_iff.mpr
      ⟨isFlat_of_tag_ne hTag, hArgs⟩

/- A flat node is left alone. -/
theorem IsFlat.spares
    {node : Node}
    (h : IsFlat unwrapSingle node) :
    (pass unwrapSingle).Spares node where
  accepts := accepts unwrapSingle node.tag
  finish := by
    cases node with
    | mk tag args =>
        by_cases hTag : tag = CoreTag.sequence.name
        · subst hTag
          have hSplice := flatMap_splice_eq_self (h.spliced rfl)
          dsimp only at hSplice
          rw [finish_sequence]
          rcases flatten_cases unwrapSingle args with
            ⟨child, hUnwrap, hSingle, -⟩ | ⟨-, hFlat⟩
          · rw [hSplice] at hSingle
            exact (h.unwrapped hUnwrap rfl child hSingle).elim
          · rw [hFlat, hSplice]
        · exact finish_other unwrapSingle hTag args

------------------------------------------------------------
-- What Is Left Of A Sequence
------------------------------------------------------------

/-
  A flattened sequence holds, or is, what was spliced.  A node
  that replaced it is no sequence.
-/
theorem splice_flatten
    {args : List Arg}
    (hArgs :
      ∀ arg ∈ args, arg.Everywhere (IsFlat unwrapSingle)) :
    splice
        (flatten unwrapSingle
          ⟨CoreTag.sequence.name, args⟩).toArg =
      args.flatMap splice := by
  rcases flatten_cases unwrapSingle args with
    ⟨child, hUnwrap, hSingle, hFlat⟩ | ⟨hMany, hFlat⟩
  · have hOther := (flat_of_flatMap_splice_eq hArgs hSingle).1
    rw [hFlat, splice_eq_singleton hOther, hSingle]
  · rw [hFlat, Node.toArg, splice_sequence]

/- A sequence is flattened after its arguments. -/
theorem foldArg_sequence_eq_ok_iff
    {args : List Arg}
    {arg' : Arg} :
    (pass unwrapSingle).foldArg
        (.node CoreTag.sequence.name args) = .ok arg' ↔
      ∃ args',
        (pass unwrapSingle).foldArgs args = .ok args' ∧
          (flatten unwrapSingle
            ⟨CoreTag.sequence.name, args'⟩).toArg = arg' :=
  Pass.foldArg_finished_eq_ok_iff (accepts unwrapSingle _)
    (finish_sequence unwrapSingle)

theorem foldArg_other_eq_ok_iff
    {tag : Tag}
    (hTag : tag ≠ CoreTag.sequence.name)
    {args : List Arg}
    {arg' : Arg} :
    (pass unwrapSingle).foldArg (.node tag args) = .ok arg' ↔
      ∃ args',
        (pass unwrapSingle).foldArgs args = .ok args' ∧
          .node tag args' = arg' :=
  Pass.foldArg_finished_eq_ok_iff (accepts unwrapSingle tag)
    (finish_other unwrapSingle hTag)

/- What is no sequence is reached, and left, as one argument. -/
theorem foldArgs_reached_other
    {arg arg' : Arg}
    (hArg : ¬ arg.IsSequence)
    (hArg' : ¬ arg'.IsSequence)
    (hFold : (pass unwrapSingle).foldArg arg = .ok arg') :
    (pass unwrapSingle).foldArgs arg.reached =
      .ok (splice arg') := by
  rw [Arg.reached_eq_singleton hArg,
    splice_eq_singleton hArg', Pass.foldArgs_eq_ok_iff]
  exact .cons hFold .nil

/- What is reached from a tree is flattened into its result. -/
theorem foldArgs_reached
    (arg : Arg) :
    ∀ arg',
      (pass unwrapSingle).foldArg arg = .ok arg' →
        (pass unwrapSingle).foldArgs arg.reached =
          .ok (splice arg') := by
  induction arg using Arg.inductOn with
  | literal value =>
      intro arg' hFold
      have hValue := Arg.not_isSequence_literal value
      apply foldArgs_reached_other hValue ?_ hFold
      rw [Pass.foldArg, Except.ok.injEq] at hFold
      rwa [← hFold]
  | node tag args ih =>
      intro arg' hFold
      by_cases hTag : tag = CoreTag.sequence.name
      · subst hTag
        rcases foldArg_sequence_eq_ok_iff.mp hFold with
          ⟨args', hArgs, rfl⟩
        -- The arguments are flat by now, so nothing that is
        -- spliced or unwrapped from them is a sequence.
        have hFlat :
            ∀ arg ∈ args',
              arg.Everywhere (IsFlat unwrapSingle) := by
          intro arg' hArg'
          rcases Pass.exists_of_mem_foldArgs hArgs hArg' with
            ⟨arg, -, hFold⟩
          exact brings_isFlat.foldArg arg arg'
            (fun _ _ => trivial) hFold
        rw [Arg.reached_sequence, splice_flatten hFlat]
        apply Pass.foldArgs_flatMap
        rw [Pass.foldArgs_eq_ok_iff] at hArgs
        have hEach :=
          (List.forall₂_and_left args args').mpr ⟨ih, hArgs⟩
        exact hEach.imp fun arg arg' h => h.1 arg' h.2
      · rcases (foldArg_other_eq_ok_iff hTag).mp hFold with
          ⟨args', hArgs, rfl⟩
        have hNode (inner : List Arg) :
            ¬ (Arg.node tag inner).IsSequence :=
          mt Arg.isSequence_node_iff.mp hTag
        exact foldArgs_reached_other (hNode args) (hNode args')
          hFold

/- Only where single nodes are unwrapped does one go. -/
theorem unwrapSingle_of_tag_ne
    {args : List Arg}
    (hTag :
      (flatten unwrapSingle
        ⟨CoreTag.sequence.name, args⟩).tag ≠
          CoreTag.sequence.name) :
    unwrapSingle = true := by
  rcases flatten_cases unwrapSingle args with
    ⟨child, hUnwrap, -, -⟩ | ⟨-, hFlat⟩
  · exact hUnwrap
  · rw [hFlat] at hTag
    exact absurd rfl hTag

/-
  A flattened sequence holds what was reached in it, or is all
  of that.
-/
theorem exists_of_run_sequence
    {tree flat : Node}
    (hTag : tree.tag = CoreTag.sequence.name)
    (hRun : (pass unwrapSingle).run tree = .ok flat) :
    ∃ args,
      (pass unwrapSingle).foldArgs tree.toArg.reached =
          .ok args ∧
        (flat.tag = CoreTag.sequence.name →
          flat.args = args) ∧
        (flat.tag ≠ CoreTag.sequence.name →
          unwrapSingle = true ∧ [flat.toArg] = args) := by
  rw [Pass.run_eq_ok_iff] at hRun
  refine ⟨_, foldArgs_reached tree.toArg flat.toArg hRun,
    ?_, ?_⟩
  · intro hFlat
    rw [Node.toArg, hFlat, splice_sequence]
  · intro hFlat
    constructor
    · rw [Node.toArg, hTag, foldArg_sequence_eq_ok_iff] at hRun
      rcases hRun with ⟨args', -, hEq⟩
      rw [← Node.toArg_inj.mp hEq] at hFlat
      exact unwrapSingle_of_tag_ne hFlat
    · have hOther := mt Arg.isSequence_toArg_iff.mp hFlat
      rw [splice_eq_singleton hOther]

/- A node of another tag keeps it. -/
theorem eq_of_run_other
    {tree flat : Node}
    (hTag : tree.tag ≠ CoreTag.sequence.name)
    (hRun : (pass unwrapSingle).run tree = .ok flat) :
    flat.tag = tree.tag ∧
      (pass unwrapSingle).foldArgs tree.args =
        .ok flat.args := by
  rw [Pass.run_eq_ok_iff, Node.toArg,
    foldArg_other_eq_ok_iff hTag] at hRun
  rcases hRun with ⟨args', hArgs, hEq⟩
  rcases Arg.node.inj hEq with ⟨hSame, rfl⟩
  exact ⟨hSame.symm, hArgs⟩

end Flatten

/-
  Flattening succeeds on every tree.  No sequence of its result
  has a sequence among its arguments or, if single nodes are
  unwrapped, a node as its only argument.  A sequence becomes
  one of all that is reached in it, flattened, unless that is
  one node and takes its place.  Any other node keeps its tag,
  and its arguments are flattened.  A second run changes
  nothing.
-/
theorem flattening_reaches_normal_form
    (unwrapSingle : Bool)
    (tree : Node) :
    ∃ flat,
      (Flatten.pass unwrapSingle).run tree = .ok flat ∧
        (∀ node ∈ flat.toArg.nodes,
          node.tag = CoreTag.sequence.name →
            ∀ child : Node,
              child.toArg ∈ node.args →
                child.tag ≠ CoreTag.sequence.name) ∧
        (unwrapSingle = true →
          ∀ node ∈ flat.toArg.nodes,
            node.tag = CoreTag.sequence.name →
              ∀ child : Node, node.args ≠ [child.toArg]) ∧
        (tree.tag = CoreTag.sequence.name →
          ∃ args,
            (Flatten.pass unwrapSingle).foldArgs
                tree.toArg.reached = .ok args ∧
              (flat.tag = CoreTag.sequence.name →
                flat.args = args) ∧
              (flat.tag ≠ CoreTag.sequence.name →
                unwrapSingle = true ∧ [flat.toArg] = args)) ∧
        (tree.tag ≠ CoreTag.sequence.name →
          flat.tag = tree.tag ∧
            (Flatten.pass unwrapSingle).foldArgs tree.args =
              .ok flat.args) ∧
        (Flatten.pass unwrapSingle).run flat = .ok flat := by
  rcases (Flatten.pass_neverFails unwrapSingle).run tree with
    ⟨flat, hRun⟩
  have hFlat :=
    Flatten.brings_isFlat.run (fun _ _ => trivial) hRun
  refine ⟨flat, hRun, ?_, ?_, ?_, ?_, ?_⟩
  · intro node hNode hTag child hChild
    exact mt Arg.isSequence_toArg_iff.mpr
      ((hFlat node hNode).spliced hTag child.toArg hChild)
  · intro hUnwrap node hNode
    exact (hFlat node hNode).unwrapped hUnwrap
  · intro hTag
    exact Flatten.exists_of_run_sequence hTag hRun
  · intro hTag
    exact Flatten.eq_of_run_other hTag hRun
  · apply Pass.run_eq_self
    intro node hNode
    exact (hFlat node hNode).spares

------------------------------------------------------------
-- Programs
------------------------------------------------------------

/- A tree contributes to a program what it did before. -/
theorem Flatten.pieces?_of_run
    {unwrapSingle : Bool}
    {tree flat : Node}
    (hRun : (pass unwrapSingle).run tree = .ok flat) :
    flat.toArg.pieces? = tree.toArg.pieces? := by
  have hView : Piece.Compositional id := by
    intro first first' second second' hFirst hSecond
    exact congrArg₂ (· ++ ·) hFirst hSecond
  rcases (pass_exchanges id unwrapSingle).run
      (Arg.alike_congruence hView) tree with
    ⟨tree', hRun', hAlike⟩
  rw [hRun, Except.ok.injEq] at hRun'
  subst hRun'
  have hPieces := hAlike.pieces
  rw [Option.map_id] at hPieces
  exact hPieces.symm

/-
  Whatever style a program has and however its output is
  called, a tree has the same one before and after flattening,
  or none at all.
-/
theorem flattening_keeps_programs
    (unwrapSingle : Bool)
    (tree : Node) :
    ∃ flat,
      (Flatten.pass unwrapSingle).run tree = .ok flat ∧
        ∀ (style : GeneratorStyle) (output program : String),
          (Generator.mk style output).generate flat =
              .ok program ↔
            (Generator.mk style output).generate tree =
              .ok program := by
  rcases (Flatten.pass_neverFails unwrapSingle).run tree with
    ⟨flat, hRun⟩
  refine ⟨flat, hRun, ?_⟩
  intro style output program
  rw [Generator.generate_eq_ok_iff,
    Generator.generate_eq_ok_iff, Flatten.pieces?_of_run hRun]

end TemplateTree
