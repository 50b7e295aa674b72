import Mathlib.Data.List.Forall2
import TemplateTree.Pass.Basic
import TemplateTree.Proofs.Except

/-
  The nodes of a tree, and what a pass makes of them.

  Main declarations:
    * `Arg.inductOn`
    * `Arg.Everywhere`
    * `Pass.foldArg_node_eq_ok_iff`
    * `Pass.Takes.exists_run_iff`
    * `Pass.run_eq_self`
    * `Pass.Brings`
    * `Pass.Brings.run`

  A pass changes a node after its arguments.  So what it
  brings about at one node, given arguments that are done, it
  brings about everywhere in a tree, and a tree of nodes that
  it spares comes back.
-/

------------------------------------------------------------
-- Trees
------------------------------------------------------------

namespace TemplateTree

namespace Arg

mutual

/- What holds of a node when it holds of its arguments. -/
@[elab_as_elim] theorem inductOn
    {motive : Arg → Prop}
    (literal : ∀ value, motive (.literal value))
    (node :
      ∀ tag args,
        (∀ arg ∈ args, motive arg) → motive (.node tag args)) :
    (arg : Arg) →
    motive arg
| .literal value => literal value
| .node tag args => node tag args (inductOnList literal node args)

theorem inductOnList
    {motive : Arg → Prop}
    (literal : ∀ value, motive (.literal value))
    (node :
      ∀ tag args,
        (∀ arg ∈ args, motive arg) → motive (.node tag args)) :
    (args : List Arg) →
    ∀ arg ∈ args, motive arg
| [] => by simp
| arg :: args => by
    rw [List.forall_mem_cons]
    exact
      ⟨inductOn literal node arg,
        inductOnList literal node args⟩

end

mutual

/- The nodes of a tree, each before those below it. -/
def nodes : Arg → List Node
| .literal _ => []
| .node tag args => ⟨tag, args⟩ :: nodesOf args

/- The nodes of arguments. -/
def nodesOf : List Arg → List Node
| [] => []
| arg :: args => nodes arg ++ nodesOf args

end

@[simp] theorem nodes_text
    (text : String) :
    (Arg.text text).nodes = [] := by
  simp [Arg.text, nodes]

/- The nodes of arguments are those of each of them. -/
theorem mem_nodesOf_iff
    {args : List Arg}
    {node : Node} :
    node ∈ nodesOf args ↔ ∃ arg ∈ args, node ∈ arg.nodes := by
  induction args with
  | nil => simp [nodesOf]
  | cons arg args ih => simp [nodesOf, ih]

theorem mem_nodes_toArg
    (node : Node) :
    node ∈ node.toArg.nodes := by
  rw [Node.toArg, nodes]
  exact List.mem_cons_self

/- The nodes below an argument are below its node. -/
theorem mem_nodes_of_mem
    {tag : Tag}
    {args : List Arg}
    {arg : Arg}
    (hArg : arg ∈ args)
    {node : Node}
    (hNode : node ∈ arg.nodes) :
    node ∈ (Arg.node tag args).nodes := by
  rw [nodes]
  exact List.mem_cons_of_mem _
    (mem_nodesOf_iff.mpr ⟨arg, hArg, hNode⟩)

/- A form that all nodes of a tree have. -/
def Everywhere
    (form : Node → Prop)
    (arg : Arg) : Prop :=
  ∀ node ∈ arg.nodes, form node

theorem everywhere_literal
    (form : Node → Prop)
    (value : Literal) :
    Everywhere form (.literal value) := by
  simp [Everywhere, nodes]

/- All nodes of a tree are its root and those below it. -/
theorem everywhere_node_iff
    {form : Node → Prop}
    {tag : Tag}
    {args : List Arg} :
    Everywhere form (.node tag args) ↔
      form ⟨tag, args⟩ ∧ ∀ arg ∈ args, arg.Everywhere form := by
  unfold Everywhere
  rw [nodes, List.forall_mem_cons]
  apply and_congr_right
  intro hRoot
  simp only [mem_nodesOf_iff]
  constructor
  · intro h arg hArg node hNode
    exact h node ⟨arg, hArg, hNode⟩
  · rintro h node ⟨arg, hArg, hNode⟩
    exact h arg hArg node hNode

theorem everywhere_toArg_iff
    {form : Node → Prop}
    {node : Node} :
    node.toArg.Everywhere form ↔
      form node ∧ ∀ arg ∈ node.args, arg.Everywhere form :=
  everywhere_node_iff

/- A node with one text has that form if its root has. -/
theorem everywhere_ofText_iff
    {form : Node → Prop}
    {kind : CoreTag}
    {text : String} :
    Everywhere form (Node.ofText kind text).toArg ↔
      form (Node.ofText kind text) := by
  rw [everywhere_toArg_iff]
  apply and_iff_left
  intro arg hArg
  rw [List.mem_singleton.mp hArg]
  exact everywhere_literal form (.text text)

/- So has a sequence of trees that have it. -/
theorem everywhere_sequence_iff
    {form : Node → Prop}
    {children : List Node} :
    Everywhere form (Node.sequence children).toArg ↔
      form (Node.sequence children) ∧
        ∀ child ∈ children, child.toArg.Everywhere form := by
  rw [everywhere_toArg_iff]
  simp [Node.sequence]

end Arg

/- Relations that agree on the members of a list. -/
theorem List.forall₂_congr_of_mem
    {α β : Type}
    {related related' : α → β → Prop}
    {xs : List α}
    (h : ∀ x ∈ xs, ∀ y, related x y ↔ related' x y)
    {ys : List β} :
    List.Forall₂ related xs ys ↔ List.Forall₂ related' xs ys := by
  induction xs generalizing ys with
  | nil => simp only [List.forall₂_nil_left_iff]
  | cons x xs ih =>
      rw [List.forall_mem_cons] at h
      simp only [List.forall₂_cons_left_iff, h.1, ih h.2]

------------------------------------------------------------
-- Walking A Tree
------------------------------------------------------------

namespace Pass

variable {pass : Pass}

/- Arguments are changed if each of them is. -/
theorem foldArgs_eq_ok_iff
    {args args' : List Arg} :
    pass.foldArgs args = .ok args' ↔
      List.Forall₂
        (fun arg arg' => pass.foldArg arg = .ok arg')
        args args' := by
  induction args generalizing args' with
  | nil =>
      rw [foldArgs, List.forall₂_nil_left_iff, Except.ok.injEq,
        eq_comm]
  | cons arg args ih =>
      rw [foldArgs, List.forall₂_cons_left_iff]
      simp only [Except.bind_eq_ok_iff, Except.map_eq_ok_iff,
        ih]
      constructor
      · rintro ⟨first, hFirst, rest, hRest, rfl⟩
        exact ⟨first, rest, hFirst, hRest, rfl⟩
      · rintro ⟨first, rest, hFirst, hRest, rfl⟩
        exact ⟨first, hFirst, rest, hRest, rfl⟩

theorem foldArgs_eq_map
    {change : Arg → Arg}
    {args : List Arg}
    (h : ∀ arg ∈ args, pass.foldArg arg = .ok (change arg)) :
    pass.foldArgs args = .ok (args.map change) := by
  rw [foldArgs_eq_ok_iff, List.forall₂_map_right_iff,
    List.forall₂_same]
  exact h

/- Arguments that are left alone each are left alone. -/
theorem foldArgs_eq_self
    {args : List Arg}
    (h : ∀ arg ∈ args, pass.foldArg arg = .ok arg) :
    pass.foldArgs args = .ok args := by
  rw [foldArgs_eq_ok_iff, List.forall₂_same]
  exact h

/- Each changed argument was an argument before. -/
theorem exists_of_mem_foldArgs
    {args args' : List Arg}
    (h : pass.foldArgs args = .ok args')
    {arg' : Arg}
    (hArg' : arg' ∈ args') :
    ∃ arg ∈ args, pass.foldArg arg = .ok arg' := by
  rw [foldArgs_eq_ok_iff] at h
  induction h with
  | nil => cases hArg'
  | cons hFirst hRest ih =>
      rcases List.mem_cons.mp hArg' with rfl | hMem
      · exact ⟨_, List.mem_cons_self, hFirst⟩
      · rcases ih hMem with ⟨arg, hArg, hFold⟩
        exact ⟨arg, List.mem_cons_of_mem _ hArg, hFold⟩

/- A node is changed after its arguments, unless refused. -/
theorem foldArg_node_eq_ok_iff
    {tag : Tag}
    {args : List Arg}
    {arg' : Arg} :
    pass.foldArg (.node tag args) = .ok arg' ↔
      pass.refuses tag = false ∧
        ∃ args' node,
          pass.foldArgs args = .ok args' ∧
            pass.finish tag args' = .ok node ∧
            node.toArg = arg' := by
  rw [foldArg]
  cases pass.refuses tag with
  | true => simp
  | false =>
      simp only [Bool.false_eq_true, if_false,
        Except.map_eq_ok_iff, Except.bind_eq_ok_iff, true_and]
      constructor
      · rintro ⟨node, ⟨args', hArgs, hFinish⟩, rfl⟩
        exact ⟨args', node, hArgs, hFinish, rfl⟩
      · rintro ⟨args', node, hArgs, hFinish, rfl⟩
        exact ⟨node, ⟨args', hArgs, hFinish⟩, rfl⟩

/- So is a node of a tag that can always be finished. -/
theorem foldArg_finished_eq_ok_iff
    {tag : Tag}
    {change : List Arg → Node}
    (hAccepts : pass.refuses tag = false)
    (hFinish : ∀ args, pass.finish tag args = .ok (change args))
    {args : List Arg}
    {arg' : Arg} :
    pass.foldArg (.node tag args) = .ok arg' ↔
      ∃ args',
        pass.foldArgs args = .ok args' ∧
          (change args').toArg = arg' := by
  simp only [foldArg_node_eq_ok_iff, hAccepts, hFinish,
    Except.ok.injEq, true_and]
  constructor
  · rintro ⟨args', node, hArgs, rfl, rfl⟩
    exact ⟨args', hArgs, rfl⟩
  · rintro ⟨args', hArgs, rfl⟩
    exact ⟨args', _, hArgs, rfl, rfl⟩

/- Arguments that stand for others are changed in their place. -/
theorem foldArgs_flatMap
    {parts parts' : Arg → List Arg}
    {args args' : List Arg}
    (h :
      List.Forall₂
        (fun arg arg' =>
          pass.foldArgs (parts arg) = .ok (parts' arg'))
        args args') :
    pass.foldArgs (args.flatMap parts) =
      .ok (args'.flatMap parts') := by
  rw [foldArgs_eq_ok_iff]
  apply List.rel_flatMap h
  intro arg arg' hParts
  exact foldArgs_eq_ok_iff.mp hParts

/- A literal stays, and a node becomes a node. -/
theorem asLiteral?_of_foldArg
    {arg arg' : Arg}
    (h : pass.foldArg arg = .ok arg') :
    arg.asLiteral? = arg'.asLiteral? := by
  cases arg with
  | literal value =>
      rw [foldArg] at h
      cases h
      rfl
  | node tag args =>
      rcases foldArg_node_eq_ok_iff.mp h with
        ⟨-, args', node, -, -, rfl⟩
      rfl

theorem asLiteral?_of_foldArgs
    {args args' : List Arg}
    (h : pass.foldArgs args = .ok args') :
    args.map Arg.asLiteral? = args'.map Arg.asLiteral? := by
  rw [foldArgs_eq_ok_iff] at h
  induction h with
  | nil => rfl
  | cons hArg hArgs ih =>
      rw [List.map_cons, List.map_cons,
        asLiteral?_of_foldArg hArg, ih]

/- A tree is changed as it is in argument position. -/
theorem run_eq_ok_iff
    {tree tree' : Node} :
    pass.run tree = .ok tree' ↔
      pass.foldArg tree.toArg = .ok tree'.toArg := by
  rw [foldArg_toArg, Except.map_eq_ok_iff]
  constructor
  · intro h
    exact ⟨tree', h, rfl⟩
  · rintro ⟨other, hRun, hEq⟩
    cases other
    cases tree'
    cases hEq
    exact hRun

------------------------------------------------------------
-- Nodes That Are Taken
------------------------------------------------------------

/- Arguments can be changed if each of them can be. -/
theorem exists_foldArgs_iff
    {args : List Arg} :
    (∃ args', pass.foldArgs args = .ok args') ↔
      ∀ arg ∈ args, ∃ arg', pass.foldArg arg = .ok arg' := by
  simp only [foldArgs_eq_ok_iff]
  induction args with
  | nil => simp
  | cons arg args ih =>
      rw [List.forall_mem_cons, ← ih]
      simp only [List.forall₂_cons_left_iff]
      constructor
      · rintro ⟨_, first, rest, hFirst, hRest, rfl⟩
        exact ⟨⟨first, hFirst⟩, rest, hRest⟩
      · rintro ⟨⟨first, hFirst⟩, rest, hRest⟩
        exact ⟨_, first, rest, hFirst, hRest, rfl⟩

/-
  A pass that takes the nodes of a form and no others.  What
  it looks at is the node before its arguments are changed, up
  to the literals among them.
-/
def Takes
    (pass : Pass)
    (form : Node → Prop) : Prop :=
  ∀ (tag : Tag) (args args' : List Arg),
    args.map Arg.asLiteral? = args'.map Arg.asLiteral? →
      (form ⟨tag, args⟩ ↔
        pass.refuses tag = false ∧
          ∃ node, pass.finish tag args' = .ok node)

theorem Takes.exists_foldArg_iff
    {form : Node → Prop}
    (hPass : pass.Takes form)
    (arg : Arg) :
    (∃ arg', pass.foldArg arg = .ok arg') ↔
      arg.Everywhere form := by
  induction arg using Arg.inductOn with
  | literal value =>
      simp [Pass.foldArg, Arg.everywhere_literal]
  | node tag args ih =>
      have hArgs :
          (∃ args', pass.foldArgs args = .ok args') ↔
            ∀ arg ∈ args, arg.Everywhere form := by
        rw [exists_foldArgs_iff]
        exact forall₂_congr ih
      rw [Arg.everywhere_node_iff, ← hArgs]
      simp only [foldArg_node_eq_ok_iff]
      constructor
      · rintro ⟨_, hAccepts, args', node, hFold, hFinish, rfl⟩
        have hSame := asLiteral?_of_foldArgs hFold
        exact
          ⟨(hPass tag args args' hSame).mpr
              ⟨hAccepts, node, hFinish⟩,
            args', hFold⟩
      · rintro ⟨hForm, args', hFold⟩
        have hSame := asLiteral?_of_foldArgs hFold
        rcases (hPass tag args args' hSame).mp hForm with
          ⟨hAccepts, node, hFinish⟩
        exact ⟨_, hAccepts, args', node, hFold, hFinish, rfl⟩

/- Such a pass takes a tree if all of its nodes have the form. -/
theorem Takes.exists_run_iff
    {form : Node → Prop}
    (hPass : pass.Takes form)
    {tree : Node} :
    (∃ tree', pass.run tree = .ok tree') ↔
      tree.toArg.Everywhere form := by
  rw [← hPass.exists_foldArg_iff]
  simp only [foldArg_toArg, Except.map_eq_ok_iff]
  constructor
  · rintro ⟨tree', hRun⟩
    exact ⟨_, tree', hRun, rfl⟩
  · rintro ⟨_, tree', hRun, -⟩
    exact ⟨tree', hRun⟩

------------------------------------------------------------
-- Nodes That Stay
------------------------------------------------------------

/- A node that a pass accepts and gives back. -/
structure Spares
    (pass : Pass)
    (node : Node) : Prop where
  accepts : pass.refuses node.tag = false
  finish : pass.finish node.tag node.args = .ok node

theorem foldArg_eq_self
    (arg : Arg) :
    arg.Everywhere pass.Spares → pass.foldArg arg = .ok arg := by
  induction arg using Arg.inductOn with
  | literal value =>
      intro hSpares
      rw [foldArg]
  | node tag args ih =>
      intro hSpares
      rw [Arg.everywhere_node_iff] at hSpares
      rcases hSpares with ⟨hRoot, hArgs⟩
      apply foldArg_node_eq_ok_iff.mpr
      refine ⟨hRoot.accepts, args, ⟨tag, args⟩, ?_,
        hRoot.finish, rfl⟩
      apply foldArgs_eq_self
      intro arg hArg
      exact ih arg hArg (hArgs arg hArg)

/- A tree of nodes that a pass spares comes back. -/
theorem run_eq_self
    {tree : Node}
    (hSpares : tree.toArg.Everywhere pass.Spares) :
    pass.run tree = .ok tree :=
  run_eq_ok_iff.mpr (foldArg_eq_self tree.toArg hSpares)

------------------------------------------------------------
-- Nodes That Are Brought Into A Form
------------------------------------------------------------

/-
  A pass that takes a node of one form, with arguments that
  are done and have the same literals as before, to a tree of
  another form.
-/
def Brings
    (pass : Pass)
    (form form' : Node → Prop) : Prop :=
  ∀ (tag : Tag) (args args' : List Arg) (node : Node),
    form ⟨tag, args⟩ →
      pass.refuses tag = false →
        args.map Arg.asLiteral? = args'.map Arg.asLiteral? →
          (∀ arg ∈ args', arg.Everywhere form') →
            pass.finish tag args' = .ok node →
              node.toArg.Everywhere form'

theorem Brings.foldArg
    {form form' : Node → Prop}
    (hPass : pass.Brings form form')
    (arg : Arg) :
    ∀ arg',
      arg.Everywhere form →
        pass.foldArg arg = .ok arg' →
          arg'.Everywhere form' := by
  induction arg using Arg.inductOn with
  | literal value =>
      intro arg' hForm hFold
      rw [Pass.foldArg] at hFold
      cases hFold
      exact Arg.everywhere_literal form' value
  | node tag args ih =>
      intro arg' hForm hFold
      rw [Arg.everywhere_node_iff] at hForm
      rcases foldArg_node_eq_ok_iff.mp hFold with
        ⟨hAccepts, args', node, hArgs, hFinish, rfl⟩
      refine hPass tag args args' node hForm.1 hAccepts
        (asLiteral?_of_foldArgs hArgs) ?_ hFinish
      intro arg' hArg'
      rcases exists_of_mem_foldArgs hArgs hArg' with
        ⟨arg, hArg, hFold⟩
      exact ih arg hArg arg' (hForm.2 arg hArg) hFold

/- What a pass brings about at each node holds of its result. -/
theorem Brings.run
    {form form' : Node → Prop}
    (hPass : pass.Brings form form')
    {tree tree' : Node}
    (hForm : tree.toArg.Everywhere form)
    (hRun : pass.run tree = .ok tree') :
    tree'.toArg.Everywhere form' :=
  hPass.foldArg tree.toArg tree'.toArg hForm
    (run_eq_ok_iff.mp hRun)

end Pass

end TemplateTree
