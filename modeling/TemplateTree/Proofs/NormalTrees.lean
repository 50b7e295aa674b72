import Mathlib.Data.List.Chain
import TemplateTree.Proofs.DeclaredEngines
import TemplateTree.Proofs.Lowering
import TemplateTree.Proofs.ProgramMeaning

/-
  Trees that the standard filters leave as they are.

  Main declarations:
    * `ControlFlow.IsLowered`
    * `InlineDynamic.IsOpen`
    * `MergeStatic.IsMerged`
    * `MergeStatic.merge_eq_self`
    * `Node.IsNormal`
    * `standard_filters_reach_normal_form`

  Each filter has a form of its own: it brings every node into
  that form and spares the nodes that have it.  The filters
  that follow keep the form, so at the end all of them have
  nothing left to do.
-/

------------------------------------------------------------
-- Lowered Nodes
------------------------------------------------------------

namespace TemplateTree

namespace CoreTag

/- Core kinds are told by their names. -/
@[simp] theorem name_inj
    {kind kind' : CoreTag} :
    kind.name = kind'.name ↔ kind = kind' := by
  cases kind <;> cases kind' <;> decide

theorem name_ne_cond
    (kind : CoreTag) :
    kind.name ≠ Tag.cond := by
  cases kind <;> decide

theorem name_ne_loop
    (kind : CoreTag) :
    kind.name ≠ Tag.loop := by
  cases kind <;> decide

theorem isCore_name
    (kind : CoreTag) :
    Tag.isCore kind.name = true := by
  cases kind <;> rfl

end CoreTag

namespace ControlFlow

/- A node that is neither lowered nor refused. -/
structure IsLowered
    (passThrough : TagSet)
    (node : Node) : Prop where
  cond : node.tag ≠ Tag.cond
  loop : node.tag ≠ Tag.loop
  known :
    Tag.isCore node.tag = true ∨
      passThrough.contains node.tag = true

variable {passThrough : TagSet}

/- Core nodes are lowered. -/
theorem isLowered_core
    (passThrough : TagSet)
    (kind : CoreTag)
    (args : List Arg) :
    IsLowered passThrough ⟨kind.name, args⟩ where
  cond := kind.name_ne_cond
  loop := kind.name_ne_loop
  known := Or.inl kind.isCore_name

theorem everywhere_block
    (passThrough : TagSet)
    (code : String) :
    (Node.block code).toArg.Everywhere
      (IsLowered passThrough) :=
  Arg.everywhere_ofText_iff.mpr
    (isLowered_core passThrough .block _)

theorem everywhere_sequence
    {children : List Node}
    (hChildren :
      ∀ child ∈ children,
        child.toArg.Everywhere (IsLowered passThrough)) :
    (Node.sequence children).toArg.Everywhere
      (IsLowered passThrough) :=
  Arg.everywhere_sequence_iff.mpr
    ⟨isLowered_core passThrough .sequence _, hChildren⟩

/- A node of another tag is left as it is or refused. -/
theorem refuses_eq_false_iff
    {tag : Tag}
    (hCond : tag ≠ Tag.cond)
    (hLoop : tag ≠ Tag.loop) :
    (pass passThrough).refuses tag = false ↔
      Tag.isCore tag = true ∨
        passThrough.contains tag = true := by
  cases hCore : Tag.isCore tag <;>
    simp [Pass.refuses, pass, hCond, hLoop, hCore]

/- Lowering leaves neither conditions nor loops. -/
theorem brings_isLowered :
    (pass passThrough).Brings (fun _ => True)
      (IsLowered passThrough) := by
  intro tag args args' node hForm hAccepts hLiterals hArgs
    hFinish
  by_cases hCond : tag = Tag.cond
  · rw [hCond, finish_cond] at hFinish
    rcases exists_of_lowerIf hFinish with
      ⟨test, body, rfl, rfl⟩ | ⟨test, body, other, rfl, rfl⟩
    · apply everywhere_sequence
      simp only [List.forall_mem_cons] at hArgs ⊢
      exact
        ⟨everywhere_block _ _, hArgs.2.1,
          everywhere_block _ _, by simp⟩
    · apply everywhere_sequence
      simp only [List.forall_mem_cons] at hArgs ⊢
      exact
        ⟨everywhere_block _ _, hArgs.2.1,
          everywhere_block _ _, hArgs.2.2.1,
          everywhere_block _ _, by simp⟩
  · by_cases hLoop : tag = Tag.loop
    · rw [hLoop, finish_loop] at hFinish
      rcases exists_of_lowerLoop hFinish with
        ⟨header, body, rfl, -, rfl⟩
      apply everywhere_sequence
      simp only [List.forall_mem_cons] at hArgs ⊢
      exact
        ⟨everywhere_block _ _, hArgs.2.1,
          everywhere_block _ _, by simp⟩
    · rw [finish_other hCond hLoop] at hFinish
      cases hFinish
      have hKnown :=
        (refuses_eq_false_iff hCond hLoop).mp hAccepts
      exact Arg.everywhere_toArg_iff.mpr
        ⟨⟨hCond, hLoop, hKnown⟩, hArgs⟩

/- A lowered node is left alone. -/
theorem IsLowered.spares
    {node : Node}
    (h : IsLowered passThrough node) :
    (pass passThrough).Spares node where
  accepts := (refuses_eq_false_iff h.cond h.loop).mpr h.known
  finish := finish_other h.cond h.loop node.args

end ControlFlow

------------------------------------------------------------
-- Expressions Without A Known Value
------------------------------------------------------------

namespace InlineDynamic

/- A node that is no expression with a known value. -/
def IsOpen (node : Node) : Prop :=
  node.tag = CoreTag.dynamic.name → value? node = none

theorem isOpen_of_tag_ne
    {node : Node}
    (hTag : node.tag ≠ CoreTag.dynamic.name) :
    IsOpen node :=
  fun hDynamic => absurd hDynamic hTag

/- No tag is refused. -/
theorem accepts
    (tag : Tag) :
    pass.refuses tag = false := by
  simp [Pass.refuses, pass]

theorem finish_dynamic
    (args : List Arg) :
    pass.finish CoreTag.dynamic.name args =
      .ok (inline ⟨CoreTag.dynamic.name, args⟩) := rfl

theorem finish_other
    {tag : Tag}
    (hTag : tag ≠ CoreTag.dynamic.name)
    (args : List Arg) :
    pass.finish tag args = .ok ⟨tag, args⟩ := by
  simp [Pass.finish, pass, hTag]

/-
  A form of nodes is kept if static texts have it, and if
  other nodes keep it with new arguments.
-/
theorem brings
    {form form' : Node → Prop}
    (hStatic : ∀ text, form' (Node.static text))
    (hKept :
      ∀ tag args args',
        form ⟨tag, args⟩ →
          IsOpen ⟨tag, args'⟩ → form' ⟨tag, args'⟩) :
    pass.Brings form form' := by
  intro tag args args' node hForm hAccepts hLiterals hArgs
    hFinish
  by_cases hTag : tag = CoreTag.dynamic.name
  · subst hTag
    rw [finish_dynamic] at hFinish
    cases hFinish
    unfold inline
    cases hValue : value? ⟨CoreTag.dynamic.name, args'⟩ with
    | some value =>
        exact Arg.everywhere_ofText_iff.mpr
          (hStatic value.rendered)
    | none =>
        exact Arg.everywhere_toArg_iff.mpr
          ⟨hKept _ args args' hForm fun _ => hValue, hArgs⟩
  · rw [finish_other hTag] at hFinish
    cases hFinish
    exact Arg.everywhere_toArg_iff.mpr
      ⟨hKept tag args args' hForm (isOpen_of_tag_ne hTag),
        hArgs⟩

/- An expression whose value is not known is left alone. -/
theorem IsOpen.spares
    {node : Node}
    (h : IsOpen node) :
    pass.Spares node where
  accepts := accepts node.tag
  finish := by
    by_cases hTag : node.tag = CoreTag.dynamic.name
    · rw [hTag, finish_dynamic, ← hTag, inline, h hTag]
    · exact finish_other hTag node.args

/- What a value depends on is the literals of a node. -/
theorem value?_congr
    {tag : Tag}
    {args args' : List Arg}
    (hLiterals :
      args.map Arg.asLiteral? = args'.map Arg.asLiteral?) :
    value? ⟨tag, args⟩ = value? ⟨tag, args'⟩ := by
  have hText (text : String) :
      args = [Arg.text text] ↔ args' = [Arg.text text] := by
    rw [← Arg.map_asLiteral?_eq_text_iff, hLiterals,
      Arg.map_asLiteral?_eq_text_iff]
  apply Option.ext
  intro value
  simp only [value?_eq_some_iff, hText]

theorem IsOpen.congr
    {tag : Tag}
    {args args' : List Arg}
    (hLiterals :
      args.map Arg.asLiteral? = args'.map Arg.asLiteral?)
    (h : IsOpen ⟨tag, args⟩) :
    IsOpen ⟨tag, args'⟩ := by
  intro hTag
  rw [← value?_congr hLiterals]
  exact h hTag

end InlineDynamic

------------------------------------------------------------
-- Merged Sequences
------------------------------------------------------------

namespace MergeStatic

/- Arguments of which no two neighbours can be merged. -/
def Separate (args : List Arg) : Prop :=
  args.IsChain fun arg next =>
    staticText? arg = none ∨ staticText? next = none

/- A node that is no sequence with texts to merge. -/
def IsMerged (node : Node) : Prop :=
  node.tag = CoreTag.sequence.name → Separate node.args

theorem isMerged_of_tag_ne
    {node : Node}
    (hTag : node.tag ≠ CoreTag.sequence.name) :
    IsMerged node :=
  fun hSequence => absurd hSequence hTag

theorem separate_runArgs
    (before : Option String) :
    Separate (runArgs before) := by
  cases before with
  | none => exact List.isChain_nil
  | some text => exact List.isChain_singleton _

/- An argument that is no static text divides others. -/
theorem separate_append_cons
    {before after : List Arg}
    {arg : Arg}
    (hArg : staticText? arg = none)
    (hBefore : Separate before)
    (hAfter : Separate after) :
    Separate (before ++ arg :: after) := by
  unfold Separate at hBefore hAfter ⊢
  rw [List.isChain_append, List.isChain_cons]
  refine ⟨hBefore, ⟨?_, hAfter⟩, ?_⟩
  · intro next hNext
    exact Or.inl hArg
  · intro last hLast next hNext
    rw [List.head?_cons, Option.mem_some_iff] at hNext
    exact Or.inr (hNext ▸ hArg)

/- After a run of texts, merging leaves nothing to merge. -/
theorem separate_mergeFrom
    (before : Option String)
    (args : List Arg) :
    Separate (mergeFrom before args) := by
  induction args generalizing before with
  | nil =>
      rw [mergeFrom]
      exact separate_runArgs before
  | cons arg args ih =>
      rw [mergeFrom]
      cases hStatic : staticText? arg with
      | some text => exact ih _
      | none =>
          exact separate_append_cons hStatic
            (separate_runArgs before) (ih none)

/- Where nothing can be merged, a run and the rest stay. -/
theorem mergeFrom_eq_self
    (before : Option String)
    {args : List Arg}
    (h : Separate (runArgs before ++ args)) :
    mergeFrom before args = runArgs before ++ args := by
  induction args generalizing before with
  | nil => rw [mergeFrom, List.append_nil]
  | cons arg args ih =>
      rw [mergeFrom]
      cases hStatic : staticText? arg with
      | some text =>
          have hArg := staticText?_eq_some_iff.mp hStatic
          cases before with
          | none =>
              rw [hArg] at h ⊢
              simp only [Option.getD_none, String.empty_append]
              exact ih (some text) h
          | some run =>
              -- A run before a static text could be merged.
              have hRun :
                  staticText? (Node.static run).toArg =
                    some run :=
                staticText?_eq_some_iff.mpr rfl
              have hPair := (List.isChain_cons_cons.mp h).1
              rw [hStatic, hRun] at hPair
              rcases hPair with hNone | hNone
              · cases hNone
              · cases hNone
      | none =>
          have hRest : Separate args := by
            have hSuffix : args <:+ runArgs before ++ arg :: args := by
              refine ⟨runArgs before ++ [arg], ?_⟩
              simp
            exact List.IsChain.suffix h hSuffix
          simp only
          rw [ih none hRest]
          rfl

/- Separate arguments are left as they are. -/
theorem merge_eq_self
    {args : List Arg}
    (h : Separate args) :
    merge args = args :=
  mergeFrom_eq_self none h

/- Merged arguments are old ones and static texts. -/
theorem mem_mergeFrom
    {before : Option String}
    {args : List Arg}
    {arg : Arg}
    (h : arg ∈ mergeFrom before args) :
    arg ∈ args ∨ ∃ text, arg = (Node.static text).toArg := by
  have hRun :
      ∀ run : Option String,
        arg ∈ runArgs run →
          ∃ text, arg = (Node.static text).toArg := by
    intro run hArg
    cases run with
    | none => cases hArg
    | some text => exact ⟨text, List.mem_singleton.mp hArg⟩
  induction args generalizing before with
  | nil =>
      rw [mergeFrom] at h
      exact Or.inr (hRun before h)
  | cons first rest ih =>
      rw [mergeFrom] at h
      cases hStatic : staticText? first with
      | some text =>
          simp only [hStatic] at h
          exact (ih h).imp_left (List.mem_cons_of_mem first)
      | none =>
          simp only [hStatic, List.mem_append,
            List.mem_cons] at h
          rcases h with hArg | rfl | hArg
          · exact Or.inr (hRun before hArg)
          · exact Or.inl List.mem_cons_self
          · exact (ih hArg).imp_left
              (List.mem_cons_of_mem first)

/- No tag is refused. -/
theorem accepts
    (tag : Tag) :
    pass.refuses tag = false := by
  simp [Pass.refuses, pass]

theorem finish_sequence
    (args : List Arg) :
    pass.finish CoreTag.sequence.name args =
      .ok ⟨CoreTag.sequence.name, merge args⟩ := rfl

theorem finish_other
    {tag : Tag}
    (hTag : tag ≠ CoreTag.sequence.name)
    (args : List Arg) :
    pass.finish tag args = .ok ⟨tag, args⟩ := by
  simp [Pass.finish, pass, hTag]

/-
  A form of nodes is brought about if static texts have it,
  merged sequences have it, and other nodes keep it with new
  arguments of the same literals.
-/
theorem brings
    {form form' : Node → Prop}
    (hStatic : ∀ text, form' (Node.static text))
    (hSequence :
      ∀ args,
        Separate args → form' ⟨CoreTag.sequence.name, args⟩)
    (hKept :
      ∀ tag args args',
        tag ≠ CoreTag.sequence.name →
          args.map Arg.asLiteral? = args'.map Arg.asLiteral? →
            form ⟨tag, args⟩ → form' ⟨tag, args'⟩) :
    pass.Brings form form' := by
  intro tag args args' node hForm hAccepts hLiterals hArgs
    hFinish
  by_cases hTag : tag = CoreTag.sequence.name
  · subst hTag
    rw [finish_sequence] at hFinish
    cases hFinish
    refine Arg.everywhere_toArg_iff.mpr
      ⟨hSequence _ (separate_mergeFrom none args'), ?_⟩
    intro arg hArg
    rcases mem_mergeFrom hArg with hOld | ⟨text, rfl⟩
    · exact hArgs arg hOld
    · exact Arg.everywhere_ofText_iff.mpr (hStatic text)
  · rw [finish_other hTag] at hFinish
    cases hFinish
    exact Arg.everywhere_toArg_iff.mpr
      ⟨hKept tag args args' hTag hLiterals hForm, hArgs⟩

/- A merged node is left alone. -/
theorem IsMerged.spares
    {node : Node}
    (h : IsMerged node) :
    pass.Spares node where
  accepts := accepts node.tag
  finish := by
    by_cases hTag : node.tag = CoreTag.sequence.name
    · rw [hTag, finish_sequence, merge_eq_self (h hTag), ← hTag]
    · exact finish_other hTag node.args

end MergeStatic

------------------------------------------------------------
-- Normal Trees
------------------------------------------------------------

/-
  A node on which none of the standard filters has anything
  to do.
-/
structure Node.IsNormal (node : Node) : Prop where
  lowered : ControlFlow.IsLowered NameMap.empty node
  isOpen : InlineDynamic.IsOpen node
  merged : MergeStatic.IsMerged node

/- Evaluating expressions keeps nodes lowered. -/
theorem InlineDynamic.brings_isOpen :
    pass.Brings (ControlFlow.IsLowered NameMap.empty)
      fun node =>
        ControlFlow.IsLowered NameMap.empty node ∧
          IsOpen node := by
  have hStatic : CoreTag.static.name ≠ CoreTag.dynamic.name := by
    decide
  apply brings
  · intro text
    exact
      ⟨ControlFlow.isLowered_core _ .static _,
        isOpen_of_tag_ne hStatic⟩
  · intro tag args args' hLowered hOpen
    exact
      ⟨⟨hLowered.cond, hLowered.loop, hLowered.known⟩, hOpen⟩

/- Merging keeps nodes lowered, and expressions open. -/
theorem MergeStatic.brings_isNormal :
    pass.Brings
      (fun node =>
        ControlFlow.IsLowered NameMap.empty node ∧
          InlineDynamic.IsOpen node)
      Node.IsNormal := by
  have hStatic : CoreTag.static.name ≠ CoreTag.dynamic.name := by
    decide
  have hText : CoreTag.static.name ≠ CoreTag.sequence.name := by
    decide
  have hRoot : CoreTag.sequence.name ≠ CoreTag.dynamic.name := by
    decide
  apply brings
  · intro text
    exact
      ⟨ControlFlow.isLowered_core _ .static _,
        InlineDynamic.isOpen_of_tag_ne hStatic,
        isMerged_of_tag_ne hText⟩
  · intro args hSeparate
    exact
      ⟨ControlFlow.isLowered_core _ .sequence _,
        InlineDynamic.isOpen_of_tag_ne hRoot,
        fun _ => hSeparate⟩
  · rintro tag args args' hTag hLiterals ⟨hLowered, hOpen⟩
    exact
      ⟨⟨hLowered.cond, hLowered.loop, hLowered.known⟩,
        hOpen.congr hLiterals, isMerged_of_tag_ne hTag⟩

------------------------------------------------------------
-- The Standard Filters
------------------------------------------------------------

/- A chain that succeeds had success before its last stage. -/
theorem Chain.exists_of_result_run_snoc
    {a b c : Type}
    {engine : String}
    {before : Chain a b}
    {stage : Stage b c}
    {x : a}
    {z : c}
    (h : ((before.snoc stage).run engine x).result = .ok z) :
    ∃ y,
      (before.run engine x).result = .ok y ∧
        (stage.run y).result = .ok z := by
  rw [Chain.run_snoc, Run.result_andThen,
    Except.bind_eq_ok_iff] at h
  simpa only [Run.mapError, Except.mapError_eq_ok_iff]
    using h

/- Three passes make up the filters of the standard engine. -/
theorem EngineFile.filterEngine_standard :
    standard.filterEngine =
      .ok
        (some
          ⟨"wf",
            ((Chain.nil.snoc
                (Catalogue.ofPass
                  (ControlFlow.pass NameMap.empty))).snoc
              (Catalogue.ofPass InlineDynamic.pass)).snoc
                (Catalogue.ofPass MergeStatic.pass)⟩) := rfl

/- They run one after another. -/
theorem EngineFile.run_standard_eq_ok_iff
    {filters : Engine Node Node}
    (hFilters : standard.filterEngine = .ok (some filters))
    {tree tree' : Node} :
    (filters.run tree).result = .ok tree' ↔
      ∃ lowered inlined,
        (ControlFlow.pass NameMap.empty).run tree =
            .ok lowered ∧
          InlineDynamic.pass.run lowered = .ok inlined ∧
          MergeStatic.pass.run inlined = .ok tree' := by
  rw [filterEngine_standard] at hFilters
  cases hFilters
  constructor
  · intro hRun
    rcases Chain.exists_of_result_run_snoc hRun with
      ⟨inlined, hRun, hMerge⟩
    rcases Chain.exists_of_result_run_snoc hRun with
      ⟨lowered, hRun, hInline⟩
    rcases Chain.exists_of_result_run_snoc hRun with
      ⟨start, hStart, hLower⟩
    rw [Chain.run] at hStart
    cases hStart
    exact ⟨lowered, inlined, hLower, hInline, hMerge⟩
  · rintro ⟨lowered, inlined, hLower, hInline, hMerge⟩
    have hStart :
        ((Chain.nil : Chain Node Node).run "wf"
          tree).result = .ok tree := by
      rw [Chain.run]
    exact
      Chain.result_run_snoc
        (Chain.result_run_snoc
          (Chain.result_run_snoc hStart hLower) hInline)
        hMerge

/- A normal tree comes back from them. -/
theorem EngineFile.run_standard_normal
    {filters : Engine Node Node}
    (hFilters : standard.filterEngine = .ok (some filters))
    {tree : Node}
    (hTree : tree.toArg.Everywhere Node.IsNormal) :
    (filters.run tree).result = .ok tree := by
  apply (run_standard_eq_ok_iff hFilters).mpr
  refine ⟨tree, tree, ?_, ?_, ?_⟩
  · apply Pass.run_eq_self
    intro node hNode
    exact (hTree node hNode).lowered.spares
  · apply Pass.run_eq_self
    intro node hNode
    exact (hTree node hNode).isOpen.spares
  · apply Pass.run_eq_self
    intro node hNode
    exact (hTree node hNode).merged.spares

/- Whatever they are run on, a normal tree is left. -/
theorem EngineFile.isNormal_of_run_standard
    {filters : Engine Node Node}
    (hFilters : standard.filterEngine = .ok (some filters))
    {tree tree' : Node}
    (hRun : (filters.run tree).result = .ok tree') :
    tree'.toArg.Everywhere Node.IsNormal := by
  rcases (run_standard_eq_ok_iff hFilters).mp hRun with
    ⟨lowered, inlined, hLower, hInline, hMerge⟩
  have hLowered :=
    ControlFlow.brings_isLowered.run (fun _ _ => trivial)
      hLower
  have hInlined :=
    InlineDynamic.brings_isOpen.run hLowered hInline
  exact MergeStatic.brings_isNormal.run hInlined hMerge

/-
  The standard filters leave only core tags, no expression
  that is a literal, and no two static texts next to each
  other in a sequence.  A second run changes nothing.
-/
theorem standard_filters_reach_normal_form
    {filters : Engine Node Node}
    {tree tree' : Node}
    (hFilters :
      EngineFile.standard.filterEngine = .ok (some filters))
    (hRun : (filters.run tree).result = .ok tree') :
    (∀ node ∈ tree'.toArg.nodes,
        Tag.isCore node.tag = true) ∧
      (∀ node ∈ tree'.toArg.nodes,
        node.tag = CoreTag.dynamic.name →
          ∀ text,
            node.args = [Arg.text text] →
              Expression.literal? text = none) ∧
      (∀ node ∈ tree'.toArg.nodes,
        node.tag = CoreTag.sequence.name →
          ∀ before after first second,
            node.args ≠
              before ++ (Node.static first).toArg ::
                (Node.static second).toArg :: after) ∧
      (filters.run tree').result = .ok tree' := by
  have hNormal :=
    EngineFile.isNormal_of_run_standard hFilters hRun
  refine ⟨?_, ?_, ?_,
    EngineFile.run_standard_normal hFilters hNormal⟩
  · intro node hNode
    refine (hNormal node hNode).lowered.known.resolve_right ?_
    simp [NameMap.contains, NameMap.empty]
  · intro node hNode hTag text hArgs
    rw [Option.eq_none_iff_forall_not_mem]
    intro value hValue
    have hKnown : InlineDynamic.value? node = some value :=
      InlineDynamic.value?_eq_some_iff.mpr ⟨text, hArgs, hValue⟩
    rw [(hNormal node hNode).isOpen hTag] at hKnown
    cases hKnown
  · intro node hNode hTag before after first second hArgs
    have hPair :=
      List.isChain_iff_forall_rel_of_append_cons_cons.mp
        ((hNormal node hNode).merged hTag) hArgs
    have hStatic (text : String) :
        MergeStatic.staticText? (Node.static text).toArg ≠
          none := by
      rw [MergeStatic.staticText?_eq_some_iff.mpr rfl]
      exact Option.some_ne_none text
    exact hPair.elim (hStatic first) (hStatic second)

namespace OddPage

/- A condition whose branch is a static node of no text. -/
def tree : Node :=
  Node.sequence
    [Node.static "a", Node.dynamic " 1 ",
      ⟨Tag.cond,
        [Arg.text " x ",
          .node CoreTag.static.name
            [(Node.sequence
              [Node.dynamic "true", Node.static "!"]).toArg]]⟩]

def normal : Node :=
  Node.sequence
    [Node.static "a1",
      Node.sequence
        [Node.block "if x \x7b",
          ⟨CoreTag.static.name,
            [(Node.sequence [Node.static "true!"]).toArg]⟩,
          Node.block "\x7d"]]

/- Texts are merged below the static node as well. -/
theorem odd_page_reaches_normal_form :
    ∃ filters,
      EngineFile.standard.filterEngine = .ok (some filters) ∧
        (filters.run tree).result = .ok normal ∧
        (∀ node ∈ normal.toArg.nodes,
          Tag.isCore node.tag = true) ∧
        (∀ node ∈ normal.toArg.nodes,
          node.tag = CoreTag.dynamic.name →
            ∀ text,
              node.args = [Arg.text text] →
                Expression.literal? text = none) ∧
        (∀ node ∈ normal.toArg.nodes,
          node.tag = CoreTag.sequence.name →
            ∀ before after first second,
              node.args ≠
                before ++ (Node.static first).toArg ::
                  (Node.static second).toArg :: after) ∧
        (filters.run normal).result = .ok normal := by
  refine ⟨_, EngineFile.filterEngine_standard, ?hRun,
    standard_filters_reach_normal_form
      EngineFile.filterEngine_standard ?hRun⟩
  rfl

end OddPage

end TemplateTree
