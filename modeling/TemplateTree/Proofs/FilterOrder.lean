import TemplateTree.Pass.Erase
import TemplateTree.Proofs.Exchange
import TemplateTree.Proofs.NormalTrees

/-
  Evaluating literal expressions before or after a pass.

  Main declarations:
    * `InlineDynamic.inlined`
    * `InlineDynamic.run_eq_inlinedTree`
    * `Pass.FitsInlining`
    * `Pass.FitsInlining.run`
    * `inlining_commutes`

  Inlining changes the tag of a node only from dynamic to
  static.  A pass that spares these nodes, and that finishes
  every other node alike with inlined arguments, gives the same
  tree whether it runs before inlining or after it.
-/

------------------------------------------------------------
-- Inlined Trees
------------------------------------------------------------

namespace TemplateTree

namespace InlineDynamic

/- A node with its value in place, where that is known. -/
def settled (node : Node) : Node :=
  if node.tag = CoreTag.dynamic.name then inline node else node

mutual

/- An argument with all known values in place. -/
def inlined : Arg → Arg
| .literal value => .literal value
| .node tag args => (settled ⟨tag, inlinedArgs args⟩).toArg

/- Arguments with all known values in place. -/
def inlinedArgs : List Arg → List Arg
| [] => []
| arg :: args => inlined arg :: inlinedArgs args

end

/- A tree with all known values in place. -/
def inlinedTree (tree : Node) : Node :=
  settled ⟨tree.tag, tree.args.map inlined⟩

theorem settled_other
    {tag : Tag}
    (hTag : tag ≠ CoreTag.dynamic.name)
    (args : List Arg) :
    settled ⟨tag, args⟩ = ⟨tag, args⟩ := by
  simp [settled, hTag]

theorem inlinedArgs_eq_map
    (args : List Arg) :
    inlinedArgs args = args.map inlined := by
  induction args with
  | nil => rw [inlinedArgs, List.map_nil]
  | cons arg args ih => rw [inlinedArgs, ih, List.map_cons]

@[simp] theorem inlined_literal
    (value : Literal) :
    inlined (.literal value) = .literal value := by
  rw [inlined]

/- An inlined node is an inlined tree in argument position. -/
theorem inlined_node
    (tag : Tag)
    (args : List Arg) :
    inlined (.node tag args) =
      (inlinedTree ⟨tag, args⟩).toArg := by
  rw [inlined, inlinedArgs_eq_map, inlinedTree]

theorem inlined_toArg
    (tree : Node) :
    inlined tree.toArg = (inlinedTree tree).toArg :=
  inlined_node tree.tag tree.args

theorem inlinedTree_other
    {tag : Tag}
    (hTag : tag ≠ CoreTag.dynamic.name)
    (args : List Arg) :
    inlinedTree ⟨tag, args⟩ = ⟨tag, args.map inlined⟩ :=
  settled_other hTag (args.map inlined)

@[simp] theorem inlinedTree_sequence
    (children : List Node) :
    inlinedTree (Node.sequence children) =
      Node.sequence (children.map inlinedTree) := by
  simp [Node.sequence, inlinedTree_other, inlined_toArg]

@[simp] theorem inlinedTree_block
    (code : String) :
    inlinedTree (Node.block code) = Node.block code := by
  simp [Node.block, Node.ofText, inlinedTree_other, Arg.text]

/- Inlining leaves the literals of a node. -/
theorem asLiteral?_inlined
    (arg : Arg) :
    (inlined arg).asLiteral? = arg.asLiteral? := by
  cases arg with
  | literal value => rw [inlined_literal]
  | node tag args =>
      rw [inlined_node]
      rfl

theorem map_asLiteral?_inlined
    (args : List Arg) :
    (args.map inlined).map Arg.asLiteral? =
      args.map Arg.asLiteral? := by
  rw [List.map_map]
  apply List.map_congr_left
  intro arg hArg
  exact asLiteral?_inlined arg

/- An expression with a known value becomes its text. -/
theorem inlinedTree_dynamic_of_value
    {args : List Arg}
    {value : Literal}
    (hValue :
      value? ⟨CoreTag.dynamic.name, args⟩ = some value) :
    inlinedTree ⟨CoreTag.dynamic.name, args⟩ =
      Node.static value.rendered := by
  rw [value?_congr (map_asLiteral?_inlined args).symm] at hValue
  simp [inlinedTree, settled, inline, hValue]

/- Any other expression stays one. -/
theorem inlinedTree_dynamic_of_none
    {args : List Arg}
    (hValue : value? ⟨CoreTag.dynamic.name, args⟩ = none) :
    inlinedTree ⟨CoreTag.dynamic.name, args⟩ =
      ⟨CoreTag.dynamic.name, args.map inlined⟩ := by
  rw [value?_congr (map_asLiteral?_inlined args).symm] at hValue
  simp [inlinedTree, settled, inline, hValue]

/- The tag of a tree is kept, or it becomes static. -/
theorem tag_inlinedTree
    (tree : Node) :
    (inlinedTree tree).tag = tree.tag ∨
      (inlinedTree tree).tag = CoreTag.static.name := by
  unfold inlinedTree settled inline
  split
  · split
    · exact Or.inr rfl
    · exact Or.inl rfl
  · exact Or.inl rfl

------------------------------------------------------------
-- Running The Pass
------------------------------------------------------------

theorem finish_eq_settled
    (tag : Tag)
    (args : List Arg) :
    pass.finish tag args = .ok (settled ⟨tag, args⟩) := by
  by_cases hTag : tag = CoreTag.dynamic.name
  · rw [hTag, finish_dynamic]
    rfl
  · rw [finish_other hTag, settled_other hTag]

theorem foldArg_eq_inlined
    (arg : Arg) :
    pass.foldArg arg = .ok (inlined arg) := by
  induction arg using Arg.inductOn with
  | literal value => rw [Pass.foldArg, inlined_literal]
  | node tag args ih =>
      apply Pass.foldArg_node_eq_ok_iff.mpr
      exact
        ⟨accepts tag, args.map inlined, _,
          Pass.foldArgs_eq_map ih, finish_eq_settled tag _,
          (inlined_node tag args).symm⟩

/- The pass gives the inlined tree. -/
theorem run_eq_inlinedTree
    (tree : Node) :
    pass.run tree = .ok (inlinedTree tree) := by
  rw [Pass.run_eq_ok_iff, foldArg_eq_inlined, inlined_toArg]

end InlineDynamic

------------------------------------------------------------
-- Passes That Fit
------------------------------------------------------------

namespace Pass

open InlineDynamic

/-
  A pass that leaves expressions and static texts alone, and
  that finishes other nodes alike with inlined arguments.
-/
structure FitsInlining (pass : Pass) : Prop where
  dynamic (args : List Arg) :
    pass.Spares ⟨CoreTag.dynamic.name, args⟩
  static (text : String) : pass.Spares (Node.static text)
  finish {tag : Tag} (args : List Arg) :
    tag ≠ CoreTag.dynamic.name →
      (pass.finish tag (args.map inlined)).toOption =
        (pass.finish tag args).toOption.map inlinedTree

variable {pass : Pass}

/- An expression is changed by changing its arguments. -/
theorem FitsInlining.foldArg_dynamic
    (hPass : pass.FitsInlining)
    (args : List Arg) :
    (pass.foldArg (.node CoreTag.dynamic.name args)).toOption =
      (pass.foldArgs args).toOption.map
        (.node CoreTag.dynamic.name) := by
  have hFinish (args' : List Arg) :
      pass.finish CoreTag.dynamic.name args' =
        .ok ⟨CoreTag.dynamic.name, args'⟩ :=
    (hPass.dynamic args').finish
  rw [foldArg, (hPass.dynamic args).accepts]
  cases pass.foldArgs args with
  | error e => rfl
  | ok args' => simp [hFinish, Node.toArg]

/- A node with one text that is spared comes back. -/
theorem foldArg_ofText
    {kind : CoreTag}
    {text : String}
    (hSpares : pass.Spares (Node.ofText kind text)) :
    pass.foldArg (Node.ofText kind text).toArg =
      .ok (Node.ofText kind text).toArg :=
  foldArg_eq_self _ (Arg.everywhere_ofText_iff.mpr hSpares)

/- Arguments that fit inlining each fit it together. -/
theorem toOption_foldArgs_inlined
    {args : List Arg}
    (h :
      ∀ arg ∈ args,
        (pass.foldArg (inlined arg)).toOption =
          (pass.foldArg arg).toOption.map inlined) :
    (pass.foldArgs (args.map inlined)).toOption =
      (pass.foldArgs args).toOption.map
        (List.map inlined) := by
  induction args with
  | nil => simp [foldArgs]
  | cons arg args ih =>
      rw [List.forall_mem_cons] at h
      rw [List.map_cons, foldArgs, foldArgs]
      simp only [Except.toOption_bind, Except.toOption_map,
        h.1, ih h.2]
      cases (pass.foldArg arg).toOption <;>
        cases (pass.foldArgs args).toOption <;> rfl

/-
  An expression with a known value has nothing below it to
  change, and one without keeps having none.
-/
theorem FitsInlining.foldArg_inlined_dynamic
    (hPass : pass.FitsInlining)
    {args : List Arg}
    (hArgs :
      (pass.foldArgs (args.map inlined)).toOption =
        (pass.foldArgs args).toOption.map
          (List.map inlined)) :
    (pass.foldArg
        (inlined (.node CoreTag.dynamic.name args))).toOption =
      (pass.foldArg
        (.node CoreTag.dynamic.name args)).toOption.map
          inlined := by
  cases hValue : value? ⟨CoreTag.dynamic.name, args⟩ with
  | some value =>
      rcases value?_eq_some_iff.mp hValue with
        ⟨text, hText, -⟩
      change args = [Arg.text text] at hText
      have hDynamic :
          pass.foldArg (.node CoreTag.dynamic.name args) =
            .ok (.node CoreTag.dynamic.name args) := by
        rw [hText]
        exact foldArg_ofText (hPass.dynamic [Arg.text text])
      have hStatic :
          pass.foldArg (Node.static value.rendered).toArg =
            .ok (Node.static value.rendered).toArg :=
        foldArg_ofText (hPass.static value.rendered)
      rw [hDynamic, Except.toOption_ok, Option.map_some,
        inlined_node, inlinedTree_dynamic_of_value hValue,
        hStatic, Except.toOption_ok]
  | none =>
      rw [inlined_node, inlinedTree_dynamic_of_none hValue,
        Node.toArg, hPass.foldArg_dynamic,
        hPass.foldArg_dynamic, hArgs]
      cases hFold : pass.foldArgs args with
      | error e => rfl
      | ok args' =>
          rw [value?_congr (asLiteral?_of_foldArgs hFold)]
            at hValue
          simp only [Except.toOption_ok, Option.map_some]
          rw [inlined_node, inlinedTree_dynamic_of_none hValue]
          rfl

/- Such a pass changes an inlined argument to an inlined one. -/
theorem FitsInlining.foldArg
    (hPass : pass.FitsInlining)
    (arg : Arg) :
    (pass.foldArg (inlined arg)).toOption =
      (pass.foldArg arg).toOption.map inlined := by
  induction arg using Arg.inductOn with
  | literal value =>
      rw [inlined_literal, Pass.foldArg]
      simp
  | node tag args ih =>
      have hArgs := toOption_foldArgs_inlined ih
      by_cases hTag : tag = CoreTag.dynamic.name
      · subst hTag
        exact hPass.foldArg_inlined_dynamic hArgs
      · have hFinish (args' : List Arg) :=
          hPass.finish args' hTag
        rw [inlined_node, inlinedTree_other hTag, Node.toArg,
          Pass.foldArg, Pass.foldArg]
        cases pass.refuses tag with
        | true => rfl
        | false =>
            simp only [Bool.false_eq_true, if_false,
              Except.toOption_map, Except.toOption_bind, hArgs]
            cases (pass.foldArgs args).toOption with
            | none => rfl
            | some args' =>
                simp [hFinish, inlined_toArg,
                  Function.comp_def]

/- Inlining first or last gives the same trees. -/
theorem FitsInlining.run
    (hPass : pass.FitsInlining)
    (tree : Node) :
    (pass.run (inlinedTree tree)).toOption =
      (pass.run tree).toOption.map inlinedTree := by
  have hFold := hPass.foldArg tree.toArg
  rw [inlined_toArg, foldArg_toArg, foldArg_toArg,
    Except.toOption_map, Except.toOption_map] at hFold
  have hInjective : Function.Injective Node.toArg :=
    fun _ _ h => Node.toArg_inj.mp h
  apply Option.map_injective hInjective
  rw [hFold, Option.map_map, Option.map_map]
  congr 1
  funext tree'
  exact inlined_toArg tree'

theorem FitsInlining.run_inline_iff
    (hPass : pass.FitsInlining)
    {tree tree' : Node} :
    (pass.run tree).bind InlineDynamic.pass.run = .ok tree' ↔
      (InlineDynamic.pass.run tree).bind pass.run =
        .ok tree' := by
  rw [← Except.toOption_eq_some_iff,
    ← Except.toOption_eq_some_iff, run_eq_inlinedTree,
    Except.bind_ok, hPass.run, Except.toOption_bind]
  simp only [run_eq_inlinedTree, Except.toOption_ok]
  rw [Option.map_eq_bind]
  rfl

/- Both orders give a tree if the pass never fails. -/
theorem FitsInlining.exists_run_inline
    (hPass : pass.FitsInlining)
    (hTotal : pass.NeverFails)
    (tree : Node) :
    ∃ tree',
      (pass.run tree).bind InlineDynamic.pass.run =
          .ok tree' ∧
        (InlineDynamic.pass.run tree).bind pass.run =
          .ok tree' := by
  rcases hTotal.run tree with ⟨changed, hRun⟩
  have hBind :
      (pass.run tree).bind InlineDynamic.pass.run =
        .ok (inlinedTree changed) := by
    rw [hRun, Except.bind_ok, run_eq_inlinedTree]
  exact
    ⟨inlinedTree changed, hBind, hPass.run_inline_iff.mp hBind⟩

end Pass

------------------------------------------------------------
-- Flattening
------------------------------------------------------------

namespace Flatten

open InlineDynamic

/- A nested sequence is spliced inlined or not. -/
theorem splice_inlined
    (arg : Arg) :
    splice (inlined arg) = (splice arg).map inlined := by
  cases arg with
  | literal value => simp [splice]
  | node tag args =>
      by_cases hTag : tag = CoreTag.sequence.name
      · subst hTag
        simp [inlined_node, inlinedTree_other, Node.toArg,
          splice]
      · have hInlined :
            (inlinedTree ⟨tag, args⟩).tag ≠
              CoreTag.sequence.name := by
          rcases tag_inlinedTree ⟨tag, args⟩ with hSame | hStatic
          · rw [hSame]
            exact hTag
          · simp [hStatic]
        have hNode := inlined_node tag args
        rw [Node.toArg] at hNode
        simp [splice, hTag, hNode, hInlined]

theorem flatMap_splice_inlined
    (args : List Arg) :
    (args.map inlined).flatMap splice =
      (args.flatMap splice).map inlined := by
  rw [List.flatMap_map, List.map_flatMap]
  simp only [splice_inlined]

theorem flatten_inlined
    (unwrapSingle : Bool)
    (args : List Arg) :
    flatten unwrapSingle
        ⟨CoreTag.sequence.name, args.map inlined⟩ =
      inlinedTree
        (flatten unwrapSingle
          ⟨CoreTag.sequence.name, args⟩) := by
  unfold flatten
  simp only [flatMap_splice_inlined]
  -- Whether one node is left is not changed by inlining.
  rcases args.flatMap splice with
    _ | ⟨_ | ⟨tag, inner⟩, _ | ⟨next, rest⟩⟩
  · rfl
  · simp [Node.withArgs, inlinedTree_other]
  · simp [Node.withArgs, inlinedTree_other]
  · cases unwrapSingle with
    | true => simp [inlined_node, Node.toArg]
    | false =>
        simp [inlined_node, Node.toArg, Node.withArgs,
          inlinedTree_other]
  · simp [Node.withArgs, inlinedTree_other]

theorem pass_fitsInlining
    (unwrapSingle : Bool) :
    (pass unwrapSingle).FitsInlining where
  dynamic := fun args => ⟨rfl, rfl⟩
  static := fun text => ⟨rfl, rfl⟩
  finish := by
    intro tag args hTag
    by_cases hSequence : tag = CoreTag.sequence.name
    · subst hSequence
      have hFlat := flatten_inlined unwrapSingle args
      simp [Pass.finish, pass, hFlat]
    · simp [Pass.finish, pass, hSequence, inlinedTree_other hTag]

theorem pass_neverFails
    (unwrapSingle : Bool) :
    (pass unwrapSingle).NeverFails where
  accepts := by
    intro tag
    simp [Pass.refuses, pass]
  transform := fun node => ⟨_, rfl⟩

end Flatten

------------------------------------------------------------
-- Erasing
------------------------------------------------------------

namespace Erase

open InlineDynamic

theorem pass_fitsInlining
    {tags : TagSet}
    (hStatic : tags.contains CoreTag.static.name = false)
    (hDynamic : tags.contains CoreTag.dynamic.name = false) :
    (pass tags).FitsInlining where
  dynamic := by
    intro args
    constructor <;>
      simp [Pass.refuses, Pass.finish, pass, hDynamic]
  static := by
    intro text
    constructor <;>
      simp [Pass.refuses, Pass.finish, pass, hStatic,
        Node.static, Node.ofText]
  finish := by
    intro tag args hTag
    cases hErased : tags.contains tag with
    | true => simp [Pass.finish, pass, hErased, Node.empty]
    | false =>
        simp [Pass.finish, pass, hErased,
          inlinedTree_other hTag]

theorem pass_neverFails
    (tags : TagSet) :
    (pass tags).NeverFails where
  accepts := by
    intro tag
    simp [Pass.refuses, pass]
  transform := fun _ => ⟨_, rfl⟩

end Erase

------------------------------------------------------------
-- Lowering
------------------------------------------------------------

namespace ControlFlow

open InlineDynamic

/- A condition is a text, which inlining leaves. -/
theorem toOption_condition_inlined
    (arg : Arg) :
    (condition (inlined arg)).toOption =
      (condition arg).toOption := by
  cases arg with
  | literal value => rw [inlined_literal]
  | node tag args =>
      rw [inlined_node]
      rfl

/- A branch is a node, which inlining leaves one. -/
theorem toOption_branch_inlined
    (arg : Arg) :
    (branch (inlined arg)).toOption =
      (branch arg).toOption.map inlinedTree := by
  cases arg with
  | literal value => rw [inlined_literal]; rfl
  | node tag args =>
      rw [inlined_node]
      rfl

theorem toOption_lowerIf_inlined
    (args : List Arg) :
    (lowerIf (args.map inlined)).toOption =
      (lowerIf args).toOption.map inlinedTree := by
  rcases args with
    _ | ⟨test, _ | ⟨body, _ | ⟨other, _ | ⟨next, rest⟩⟩⟩⟩
  · rfl
  · rfl
  · simp only [List.map_cons, List.map_nil, lowerIf,
      Except.toOption_bind, Except.toOption_map,
      toOption_condition_inlined, toOption_branch_inlined]
    cases (condition test).toOption <;>
      cases (branch body).toOption <;>
        simp [opening, closing]
  · simp only [List.map_cons, List.map_nil, lowerIf,
      Except.toOption_bind, Except.toOption_map,
      toOption_condition_inlined, toOption_branch_inlined]
    cases (condition test).toOption <;>
      cases (branch body).toOption <;>
        cases (branch other).toOption <;>
          simp [opening, otherwise, closing]
  · rfl

theorem toOption_lowerLoop_inlined
    (args : List Arg) :
    (lowerLoop (args.map inlined)).toOption =
      (lowerLoop args).toOption.map inlinedTree := by
  rcases args with _ | ⟨header, _ | ⟨body, _ | ⟨next, rest⟩⟩⟩
  · rfl
  · rfl
  · simp only [List.map_cons, List.map_nil, lowerLoop,
      Except.toOption_bind, Except.toOption_map,
      toOption_condition_inlined, toOption_branch_inlined]
    cases (condition header).toOption <;>
      cases (branch body).toOption <;>
        simp [opening, closing]
  · rfl

theorem pass_fitsInlining
    (passThrough : TagSet) :
    (pass passThrough).FitsInlining where
  dynamic := fun args =>
    (isLowered_core passThrough .dynamic args).spares
  static := fun text =>
    (isLowered_core passThrough .static [Arg.text text]).spares
  finish := by
    intro tag args hTag
    by_cases hCond : tag = Tag.cond
    · simp [Pass.finish, pass, lower, hCond,
        Except.toOption_mapError, toOption_lowerIf_inlined]
    · by_cases hLoop : tag = Tag.loop
      · have hNe : Tag.loop ≠ Tag.cond := by
          decide
        simp [Pass.finish, pass, lower, hLoop, hNe,
          Except.toOption_mapError, toOption_lowerLoop_inlined]
      · rw [finish_other hCond hLoop, finish_other hCond hLoop]
        simp [inlinedTree_other hTag]

end ControlFlow

------------------------------------------------------------
-- Either Order
------------------------------------------------------------

/-
  Flattening, erasing and lowering can each be exchanged with
  inlining.  The first two give a tree in both orders, the
  third in both or in none.
-/
theorem inlining_commutes
    (tree : Node) :
    (∀ unwrapSingle,
      ∃ tree',
        ((Flatten.pass unwrapSingle).run tree).bind
              InlineDynamic.pass.run =
            .ok tree' ∧
          (InlineDynamic.pass.run tree).bind
              (Flatten.pass unwrapSingle).run =
            .ok tree') ∧
      (∀ tags : TagSet,
        tags.contains CoreTag.static.name = false →
          tags.contains CoreTag.dynamic.name = false →
            ∃ tree',
              ((Erase.pass tags).run tree).bind
                    InlineDynamic.pass.run =
                  .ok tree' ∧
                (InlineDynamic.pass.run tree).bind
                    (Erase.pass tags).run =
                  .ok tree') ∧
      ∀ (passThrough : TagSet) (tree' : Node),
        ((ControlFlow.pass passThrough).run tree).bind
              InlineDynamic.pass.run =
            .ok tree' ↔
          (InlineDynamic.pass.run tree).bind
              (ControlFlow.pass passThrough).run =
            .ok tree' := by
  refine ⟨?_, ?_, ?_⟩
  · intro unwrapSingle
    have hFits := Flatten.pass_fitsInlining unwrapSingle
    exact hFits.exists_run_inline
      (Flatten.pass_neverFails unwrapSingle) tree
  · intro tags hStatic hDynamic
    have hFits := Erase.pass_fitsInlining hStatic hDynamic
    exact hFits.exists_run_inline
      (Erase.pass_neverFails tags) tree
  · intro passThrough tree'
    have hFits := ControlFlow.pass_fitsInlining passThrough
    exact hFits.run_inline_iff

namespace NotedPage

/- A remark between an expression and a condition. -/
def tree : Node :=
  Node.sequence
    [Node.dynamic "1",
      ⟨Tag.comment, [(Node.dynamic "true").toArg]⟩,
      ⟨Tag.cond,
        [Arg.text " x ",
          (Node.sequence
            [Node.dynamic "2", Node.dynamic "y"]).toArg]⟩]

/- The tags of remarks. -/
def remarks : TagSet :=
  TagSet.ofList [Tag.comment]

/- It without its remark. -/
def erased : Node :=
  Node.sequence
    [Node.static "1", Node.empty,
      ⟨Tag.cond,
        [Arg.text " x ",
          (Node.sequence
            [Node.static "2", Node.dynamic "y"]).toArg]⟩]

/- It with its condition lowered around the remark. -/
def lowered : Node :=
  Node.sequence
    [Node.static "1",
      ⟨Tag.comment, [(Node.static "true").toArg]⟩,
      Node.sequence
        [Node.block "if x \x7b",
          Node.sequence [Node.static "2", Node.dynamic "y"],
          Node.block "\x7d"]]

theorem noted_page_inlines_in_either_order :
    remarks.contains CoreTag.static.name = false ∧
      remarks.contains CoreTag.dynamic.name = false ∧
      ((Erase.pass remarks).run tree).bind
            InlineDynamic.pass.run =
          .ok erased ∧
        (InlineDynamic.pass.run tree).bind
            (Erase.pass remarks).run =
          .ok erased ∧
        ((ControlFlow.pass remarks).run tree).bind
            InlineDynamic.pass.run =
          .ok lowered ∧
        (InlineDynamic.pass.run tree).bind
            (ControlFlow.pass remarks).run =
          .ok lowered := by
  have hStatic :
      remarks.contains CoreTag.static.name = false := by
    decide
  have hDynamic :
      remarks.contains CoreTag.dynamic.name = false := by
    decide
  rcases inlining_commutes tree with ⟨-, hErase, hLower⟩
  rcases hErase remarks hStatic hDynamic with
    ⟨tree', hFirst, hLast⟩
  have hErased :
      ((Erase.pass remarks).run tree).bind
          InlineDynamic.pass.run =
        .ok erased := rfl
  have hLowered :
      ((ControlFlow.pass remarks).run tree).bind
          InlineDynamic.pass.run =
        .ok lowered := rfl
  rw [hErased] at hFirst
  cases hFirst
  exact
    ⟨hStatic, hDynamic, hErased, hLast, hLowered,
      (hLower remarks lowered).mp hLowered⟩

end NotedPage

end TemplateTree
