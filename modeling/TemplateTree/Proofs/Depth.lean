import TemplateTree.Tree

/-
  How deep trees nest.

  Main declarations:
    * `Arg.depthList_le_iff`
    * `Node.deeperThan_iff_lt_depth`

  Writers ask `Node.deeperThan` whether a tree may be stored,
  and readers count the levels they are in.  Both come down
  to `Node.depth`.
-/

------------------------------------------------------------
-- Depth Of Arguments
------------------------------------------------------------

namespace TemplateTree

namespace Arg

/- A bound on arguments bounds each of them. -/
theorem depthList_le_iff
    {args : List Arg}
    {limit : Nat} :
    depthList args ≤ limit ↔
      ∀ arg ∈ args, arg.depth ≤ limit := by
  induction args with
  | nil => simp [depthList]
  | cons arg args ih =>
      rw [depthList, Nat.max_le, ih, List.forall_mem_cons]

/- Arguments nest past a limit if one of their nodes does. -/
theorem lt_depthList_iff
    {args : List Arg}
    {limit : Nat} :
    limit < depthList args ↔
      ∃ child ∈ args.filterMap asNode?,
        limit < child.toArg.depth := by
  induction args with
  | nil => simp [depthList]
  | cons arg args ih =>
      have hMax :
          limit < max arg.depth (depthList args) ↔
            limit < arg.depth ∨ limit < depthList args := by
        omega
      rw [depthList, hMax, ih]
      cases arg with
      | literal value => simp [depth, asNode?]
      | node tag inner =>
          simp [asNode?, Node.toArg]

end Arg

------------------------------------------------------------
-- The Bounded Check
------------------------------------------------------------

namespace Node

/- A tree is one deeper than its arguments. -/
theorem depth_eq
    (node : Node) :
    node.depth = 1 + Arg.depthList node.args := by
  rw [depth, toArg, Arg.depth]

/- The bounded check finds exactly the trees past its limit. -/
theorem deeperThan_iff_lt_depth
    {limit : Nat}
    {node : Node} :
    node.deeperThan limit = true ↔ limit < node.depth := by
  induction limit generalizing node with
  | zero =>
      have hPos : 0 < node.depth := by
        rw [depth_eq]
        omega
      simp [deeperThan, hPos]
  | succ limit ih =>
      have hChildren :
          node.deeperThan (limit + 1) = true ↔
            ∃ child ∈ node.children,
              limit < child.depth := by
        simp only [deeperThan, List.any_eq_true, ih]
      have hDepth :
          limit + 1 < node.depth ↔
            limit < Arg.depthList node.args := by
        rw [depth_eq]
        omega
      rw [hChildren, hDepth, Arg.lt_depthList_iff]
      rfl

/- A tree that passes the check nests within the limit. -/
theorem deeperThan_eq_false_iff
    {limit : Nat}
    {node : Node} :
    node.deeperThan limit = false ↔ node.depth ≤ limit := by
  rw [← Bool.not_eq_true, deeperThan_iff_lt_depth,
    Nat.not_lt]

end Node

end TemplateTree
