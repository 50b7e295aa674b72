import Mathlib.Data.List.Forall2
import TemplateTree.Pass.Basic
import TemplateTree.Proofs.Except

/-
  Exchanging arguments that mean the same.

  Main declarations:
    * `Arg.Congruence`
    * `Pass.Exchanges`
    * `Pass.Exchanges.run`
    * `Pass.NeverFails.run`

  A congruence between arguments is kept by every tree around
  them.  A pass that refuses no tag and changes each node into
  one that is congruent to it succeeds on every tree, and the
  result is congruent to the tree.
-/

------------------------------------------------------------
-- Congruences
------------------------------------------------------------

namespace TemplateTree

/- A relation between arguments that trees around them keep. -/
structure Arg.Congruence
    (related : Arg → Arg → Prop) : Prop where
  refl (arg : Arg) : related arg arg
  trans {a b c : Arg} :
    related a b → related b c → related a c
  node (tag : Tag) {args args' : List Arg} :
    List.Forall₂ related args args' →
      related (.node tag args) (.node tag args')

namespace Pass

/-
  A pass that refuses no tag, and that changes nodes only into
  related ones.
-/
structure Exchanges
    (pass : Pass)
    (related : Arg → Arg → Prop) : Prop where
  accepts (tag : Tag) : pass.refuses tag = false
  transform (node : Node) :
    pass.handles node.tag = true →
      ∃ node',
        pass.transform node = .ok node' ∧
          related node.toArg node'.toArg

------------------------------------------------------------
-- Walking A Tree
------------------------------------------------------------

variable {pass : Pass}
variable {related : Arg → Arg → Prop}

/-
  A node whose arguments were exchanged can be changed, and
  it is still related to the node before.
-/
theorem Exchanges.finish
    (hPass : pass.Exchanges related)
    (hRelated : Arg.Congruence related)
    (tag : Tag)
    {args args' : List Arg}
    (hArgs : List.Forall₂ related args args') :
    ∃ node',
      pass.finish tag args' = .ok node' ∧
        related (.node tag args) node'.toArg := by
  have hNode := hRelated.node tag hArgs
  unfold Pass.finish
  by_cases hHandles : pass.handles tag = true
  · rcases hPass.transform ⟨tag, args'⟩ hHandles with
      ⟨node', hTransform, hNode'⟩
    refine ⟨node', ?_, hRelated.trans hNode hNode'⟩
    rw [if_pos hHandles, hTransform]
  · refine ⟨⟨tag, args'⟩, ?_, hNode⟩
    rw [if_neg hHandles]

mutual

/- Walking an argument exchanges it for a related one. -/
theorem Exchanges.foldArg
    (hPass : pass.Exchanges related)
    (hRelated : Arg.Congruence related) :
    (arg : Arg) →
    ∃ arg', pass.foldArg arg = .ok arg' ∧ related arg arg'
| .literal value => by
    refine ⟨.literal value, ?_, hRelated.refl _⟩
    rw [Pass.foldArg]
| .node tag args => by
    rcases Exchanges.foldArgs hPass hRelated args with
      ⟨args', hFold, hArgs⟩
    rcases hPass.finish hRelated tag hArgs with
      ⟨node', hFinish, hNode⟩
    refine ⟨node'.toArg, ?_, hNode⟩
    rw [Pass.foldArg, hPass.accepts tag, hFold]
    simp [hFinish]

/- Walking arguments exchanges each of them. -/
theorem Exchanges.foldArgs
    (hPass : pass.Exchanges related)
    (hRelated : Arg.Congruence related) :
    (args : List Arg) →
    ∃ args',
      pass.foldArgs args = .ok args' ∧
        List.Forall₂ related args args'
| [] => by
    refine ⟨[], ?_, List.Forall₂.nil⟩
    rw [Pass.foldArgs]
| arg :: args => by
    rcases Exchanges.foldArg hPass hRelated arg with
      ⟨first, hFirst, hArg⟩
    rcases Exchanges.foldArgs hPass hRelated args with
      ⟨rest, hRest, hArgs⟩
    refine ⟨first :: rest, ?_, List.Forall₂.cons hArg hArgs⟩
    rw [Pass.foldArgs, hFirst, hRest]
    rfl

end

/- A pass of exchanges gives a tree related to the first. -/
theorem Exchanges.run
    (hPass : pass.Exchanges related)
    (hRelated : Arg.Congruence related)
    (tree : Node) :
    ∃ tree',
      pass.run tree = .ok tree' ∧
        related tree.toArg tree'.toArg := by
  rcases hPass.foldArg hRelated tree.toArg with
    ⟨arg', hFold, hArg⟩
  rw [foldArg_toArg, Except.map_eq_ok_iff] at hFold
  rcases hFold with ⟨tree', hRun, rfl⟩
  exact ⟨tree', hRun, hArg⟩

/- A pass that refuses no tag, and that can change any node. -/
structure NeverFails (pass : Pass) : Prop where
  accepts (tag : Tag) : pass.refuses tag = false
  transform (node : Node) :
    ∃ node', pass.transform node = .ok node'

/- Such a pass gives a tree for every tree. -/
theorem NeverFails.run
    (hPass : pass.NeverFails)
    (tree : Node) :
    ∃ tree', pass.run tree = .ok tree' := by
  have hCongruence : Arg.Congruence fun _ _ => True :=
    ⟨fun _ => trivial, fun _ _ => trivial,
      fun _ _ _ _ => trivial⟩
  have hExchanges : pass.Exchanges fun _ _ => True := by
    refine ⟨hPass.accepts, ?_⟩
    intro node hHandles
    rcases hPass.transform node with ⟨node', hNode'⟩
    exact ⟨node', hNode', trivial⟩
  rcases hExchanges.run hCongruence tree with
    ⟨tree', hRun, -⟩
  exact ⟨tree', hRun⟩

end Pass

end TemplateTree
