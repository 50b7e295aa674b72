import TemplateTree.Proofs.FilterOrder
import TemplateTree.Proofs.Rendering

/-
  Trees without the nodes of some tags.

  Main declarations:
    * `Erase.erased`
    * `Erase.IsErased`
    * `Erase.foldArg_eq_erased`
    * `Render.renderWithout`
    * `Render.unblamed_renderArgWithout`
    * `erased_nodes_render_nothing`

  A node of a chosen tag leaves an empty sequence behind, which
  may be of a chosen tag again.  Rendering what is left is like
  rendering the tree and skipping the nodes of these tags, also
  where it fails.
-/

------------------------------------------------------------
-- Erased Trees
------------------------------------------------------------

namespace TemplateTree

namespace Erase

mutual

/- An argument with empty sequences for nodes of some tags. -/
def erased (tags : TagSet) : Arg → Arg
| .literal value => .literal value
| .node tag args =>
    if tags.contains tag then Node.empty.toArg
    else .node tag (erasedArgs tags args)

/- Arguments with empty sequences for nodes of some tags. -/
def erasedArgs (tags : TagSet) : List Arg → List Arg
| [] => []
| arg :: args => erased tags arg :: erasedArgs tags args

end

variable {tags : TagSet}

theorem erasedArgs_eq_map
    (args : List Arg) :
    erasedArgs tags args = args.map (erased tags) := by
  induction args with
  | nil => rw [erasedArgs, List.map_nil]
  | cons arg args ih => rw [erasedArgs, ih, List.map_cons]

theorem erased_literal
    (value : Literal) :
    erased tags (.literal value) = .literal value := by
  rw [erased]

theorem erased_chosen
    {tag : Tag}
    (hTag : tags.contains tag = true)
    (args : List Arg) :
    erased tags (.node tag args) = Node.empty.toArg := by
  rw [erased, if_pos hTag]

theorem erased_other
    {tag : Tag}
    (hTag : tags.contains tag = false)
    (args : List Arg) :
    erased tags (.node tag args) =
      .node tag (args.map (erased tags)) := by
  rw [erased, erasedArgs_eq_map]
  simp [hTag]

------------------------------------------------------------
-- Running The Pass
------------------------------------------------------------

theorem accepts
    (tags : TagSet)
    (tag : Tag) :
    (pass tags).refuses tag = false :=
  (pass_neverFails tags).accepts tag

theorem finish_chosen
    {tag : Tag}
    (hTag : tags.contains tag = true)
    (args : List Arg) :
    (pass tags).finish tag args = .ok Node.empty := by
  simp [Pass.finish, pass, hTag]

theorem finish_other
    {tag : Tag}
    (hTag : tags.contains tag = false)
    (args : List Arg) :
    (pass tags).finish tag args = .ok ⟨tag, args⟩ := by
  simp [Pass.finish, pass, hTag]

/- The pass gives the erased tree. -/
theorem foldArg_eq_erased
    (arg : Arg) :
    (pass tags).foldArg arg = .ok (erased tags arg) := by
  induction arg using Arg.inductOn with
  | literal value => rw [Pass.foldArg, erased_literal]
  | node tag args ih =>
      have hArgs := Pass.foldArgs_eq_map ih
      apply Pass.foldArg_node_eq_ok_iff.mpr
      cases hTag : tags.contains tag with
      | true =>
          exact
            ⟨accepts tags tag, _, _, hArgs, finish_chosen hTag _,
              (erased_chosen hTag args).symm⟩
      | false =>
          exact
            ⟨accepts tags tag, _, _, hArgs, finish_other hTag _,
              (erased_other hTag args).symm⟩

theorem foldArgs_eq_erased
    (args : List Arg) :
    (pass tags).foldArgs args =
      .ok (args.map (erased tags)) :=
  Pass.foldArgs_eq_map fun arg _ => foldArg_eq_erased arg

/- Like any pass, it leaves the literals of a node. -/
theorem map_asLiteral?_erased
    (args : List Arg) :
    args.map Arg.asLiteral? =
      (args.map (erased tags)).map Arg.asLiteral? :=
  Pass.asLiteral?_of_foldArgs (foldArgs_eq_erased args)

/- A node of no chosen tag, or the empty sequence. -/
def IsErased
    (tags : TagSet)
    (node : Node) : Prop :=
  tags.contains node.tag = true → node = Node.empty

theorem everywhere_empty :
    Node.empty.toArg.Everywhere (IsErased tags) :=
  Arg.everywhere_sequence_iff.mpr ⟨fun _ => rfl, by simp⟩

/- Erasing leaves no other node of a chosen tag. -/
theorem brings_isErased :
    (pass tags).Brings (fun _ => True) (IsErased tags) := by
  intro tag args args' node hForm hAccepts hLiterals hArgs
    hFinish
  cases hTag : tags.contains tag with
  | true =>
      rw [finish_chosen hTag, Except.ok.injEq] at hFinish
      subst hFinish
      exact everywhere_empty
  | false =>
      rw [finish_other hTag, Except.ok.injEq] at hFinish
      subst hFinish
      refine Arg.everywhere_toArg_iff.mpr ⟨?_, hArgs⟩
      intro hChosen
      rw [hTag] at hChosen
      cases hChosen

/- An erased node is left alone. -/
theorem IsErased.spares
    {node : Node}
    (h : IsErased tags node) :
    (pass tags).Spares node where
  accepts := accepts tags node.tag
  finish := by
    cases hTag : tags.contains node.tag with
    | true => rw [finish_chosen hTag, h hTag]
    | false => exact finish_other hTag node.args

end Erase

------------------------------------------------------------
-- Rendering Without Some Tags
------------------------------------------------------------

namespace Render

mutual

/-
  The rendered text of a tree below an argument, if the nodes
  of some tags contribute nothing.
-/
def renderArgWithout
    (tags : TagSet)
    (bindings : Bindings)
    (parent : Node) :
    Arg → Except CompileError String
| .literal _ => .error (Fault.literalInSequence.on parent)
| .node tag args =>
    let node : Node := ⟨tag, args⟩
    if tags.contains tag then .ok ""
    else
      match Tag.core? tag with
      | some .sequence =>
          renderArgsWithout tags bindings node args
      | some .static =>
          (singleText node).mapError (Fault.on node)
      | some .dynamic =>
          (renderDynamic bindings node).mapError (Fault.on node)
      | some .block => .error (Fault.fragment.on node)
      | none => .error (Fault.foreign.on node)

/- The rendered text of the arguments of a sequence. -/
def renderArgsWithout
    (tags : TagSet)
    (bindings : Bindings)
    (parent : Node) :
    List Arg → Except CompileError String
| [] => .ok ""
| arg :: args =>
    match renderArgWithout tags bindings parent arg with
    | .error error => .error error
    | .ok text =>
        (renderArgsWithout tags bindings parent args).map
          (text ++ ·)

end

/- The text of a tree without the nodes of some tags. -/
def renderWithout
    (tags : TagSet)
    (bindings : Bindings)
    (node : Node) : Except CompileError String :=
  renderArgWithout tags bindings node node.toArg

variable {tags : TagSet}

theorem renderArgWithout_chosen
    {tag : Tag}
    (hTag : tags.contains tag = true)
    (bindings : Bindings)
    (parent : Node)
    (args : List Arg) :
    renderArgWithout tags bindings parent (.node tag args) =
      .ok "" := by
  rw [renderArgWithout]
  simp [hTag]

theorem renderArgWithout_sequence
    (hTag : tags.contains CoreTag.sequence.name = false)
    (bindings : Bindings)
    (parent : Node)
    (args : List Arg) :
    renderArgWithout tags bindings parent
        (.node CoreTag.sequence.name args) =
      renderArgsWithout tags bindings
        ⟨CoreTag.sequence.name, args⟩ args := by
  have hCore :
      Tag.core? CoreTag.sequence.name = some .sequence :=
    Tag.core?_eq_some_iff.mpr rfl
  rw [renderArgWithout]
  simp [hTag, hCore]

/- Any other node is rendered as it always is. -/
theorem renderArgWithout_other
    {tag : Tag}
    (hTag : tags.contains tag = false)
    (hOther : tag ≠ CoreTag.sequence.name)
    (bindings : Bindings)
    (parent : Node)
    (args : List Arg) :
    renderArgWithout tags bindings parent (.node tag args) =
      renderArg bindings parent (.node tag args) := by
  cases hCore : Tag.core? tag with
  | none => simp [renderArgWithout, renderArg, hTag, hCore]
  | some kind =>
      cases kind with
      | sequence =>
          exact absurd (Tag.core?_eq_some_iff.mp hCore) hOther
      | _ => simp [renderArgWithout, renderArg, hTag, hCore]

/- Arguments that tell what they do erased do so together. -/
theorem unblamed_renderArgsWithout
    {bindings : Bindings}
    {args : List Arg}
    (h :
      ∀ arg ∈ args,
        ∀ parent,
          (renderArgWithout tags bindings parent arg).mapError
              CompileError.unblamed =
            outcome bindings (Erase.erased tags arg))
    (parent : Node) :
    (renderArgsWithout tags bindings parent args).mapError
        CompileError.unblamed =
      outcomes bindings (args.map (Erase.erased tags)) := by
  induction args with
  | nil => simp [renderArgsWithout]
  | cons arg args ih =>
      rw [List.forall_mem_cons] at h
      rw [renderArgsWithout, List.map_cons, outcomes_cons,
        ← h.1 parent, ← ih h.2]
      cases renderArgWithout tags bindings parent arg with
      | error error => simp
      | ok first =>
          cases renderArgsWithout tags bindings parent args with
          | error error => simp
          | ok rest => simp

/- Skipping nodes tells the same as erasing them first. -/
theorem unblamed_renderArgWithout
    (bindings : Bindings)
    (arg : Arg) :
    ∀ parent,
      (renderArgWithout tags bindings parent arg).mapError
          CompileError.unblamed =
        outcome bindings (Erase.erased tags arg) := by
  induction arg using Arg.inductOn with
  | literal value =>
      intro parent
      rw [Erase.erased_literal,
        ← unblamed_renderArg bindings parent, renderArgWithout,
        renderArg]
  | node tag args ih =>
      intro parent
      cases hTag : tags.contains tag with
      | true =>
          rw [renderArgWithout_chosen hTag,
            Erase.erased_chosen hTag, Node.empty, Node.sequence,
            Node.toArg, outcome_sequence]
          exact (outcomes_nil bindings).symm
      | false =>
          rw [Erase.erased_other hTag]
          by_cases hOther : tag = CoreTag.sequence.name
          · subst hOther
            rw [renderArgWithout_sequence hTag,
              outcome_sequence]
            exact unblamed_renderArgsWithout ih _
          · rw [renderArgWithout_other hTag hOther,
              unblamed_renderArg]
            exact outcome_eq_of_literals bindings hOther
              (Erase.map_asLiteral?_erased args)

/- Where no node is skipped, arguments are rendered as ever. -/
theorem renderArgsWithout_eq_renderArgs
    {bindings : Bindings}
    {args : List Arg}
    (h :
      ∀ arg ∈ args,
        ∀ parent,
          renderArgWithout tags bindings parent arg =
            renderArg bindings parent arg)
    (parent : Node) :
    renderArgsWithout tags bindings parent args =
      renderArgs bindings parent args := by
  induction args with
  | nil => rw [renderArgsWithout, renderArgs]
  | cons arg args ih =>
      rw [List.forall_mem_cons] at h
      cases hArg : renderArg bindings parent arg with
      | error error =>
          simp [renderArgsWithout, renderArgs, h.1, hArg]
      | ok text =>
          simp [renderArgsWithout, renderArgs, h.1, hArg,
            ih h.2]

theorem renderArgWithout_eq_renderArg
    (bindings : Bindings)
    (arg : Arg) :
    arg.Everywhere
        (fun node => tags.contains node.tag = false) →
      ∀ parent,
        renderArgWithout tags bindings parent arg =
          renderArg bindings parent arg := by
  induction arg using Arg.inductOn with
  | literal value =>
      intro hAbsent parent
      rw [renderArgWithout, renderArg]
  | node tag args ih =>
      intro hAbsent parent
      rw [Arg.everywhere_node_iff] at hAbsent
      by_cases hOther : tag = CoreTag.sequence.name
      · subst hOther
        have hCore :
            Tag.core? CoreTag.sequence.name = some .sequence :=
          Tag.core?_eq_some_iff.mpr rfl
        rw [renderArgWithout_sequence hAbsent.1, renderArg,
          hCore]
        apply renderArgsWithout_eq_renderArgs
        intro arg hArg
        exact ih arg hArg (hAbsent.2 arg hArg)
      · exact renderArgWithout_other hAbsent.1 hOther bindings
          parent args

end Render

/-
  Erasing succeeds on every tree, and puts an empty sequence in
  the place of each outermost node of a chosen tag.  What is
  left of a chosen tag are such empty sequences.  A tree with
  no chosen tag comes back, and a second run changes nothing.
  What is left renders as the tree does if nodes of the chosen
  tags are skipped, which is as ever if there are none.
-/
theorem erased_nodes_render_nothing
    (tags : TagSet)
    (tree : Node) :
    ∃ left,
      (Erase.pass tags).run tree = .ok left ∧
        left.toArg = Erase.erased tags tree.toArg ∧
        (∀ node ∈ left.toArg.nodes,
          tags.contains node.tag = true →
            node = Node.empty) ∧
        ((∀ node ∈ tree.toArg.nodes,
            tags.contains node.tag = false) →
          left = tree ∧
            ∀ bindings,
              Render.renderWithout tags bindings tree =
                Render.render bindings tree) ∧
        (Erase.pass tags).run left = .ok left ∧
        ∀ bindings,
          Render.Agree (Render.render bindings left)
            (Render.renderWithout tags bindings tree) := by
  rcases (Erase.pass_neverFails tags).run tree with
    ⟨left, hRun⟩
  have hErased :=
    Erase.brings_isErased.run (fun _ _ => trivial) hRun
  have hLeft : left.toArg = Erase.erased tags tree.toArg := by
    rw [Pass.run_eq_ok_iff, Erase.foldArg_eq_erased,
      Except.ok.injEq] at hRun
    exact hRun.symm
  refine ⟨left, hRun, hLeft, hErased, ?_, ?_, ?_⟩
  · intro hAbsent
    constructor
    · have hSame : (Erase.pass tags).run tree = .ok tree := by
        apply Pass.run_eq_self
        intro node hNode
        apply Erase.IsErased.spares
        intro hChosen
        rw [hAbsent node hNode] at hChosen
        cases hChosen
      rw [hSame, Except.ok.injEq] at hRun
      exact hRun.symm
    · intro bindings
      exact Render.renderArgWithout_eq_renderArg bindings
        tree.toArg hAbsent tree
  · apply Pass.run_eq_self
    intro node hNode
    exact (hErased node hNode).spares
  · intro bindings
    apply Render.agree_of_mapError_eq
    · intro error hError
      exact Render.isRenderError_of_renderArg _ hError
    · rw [Render.renderWithout,
        Render.unblamed_renderArgWithout, Render.render,
        Render.unblamed_renderArg, hLeft]

end TemplateTree
