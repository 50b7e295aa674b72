import TemplateTree.Proofs.EngineComposition
import TemplateTree.Proofs.Exchange
import TemplateTree.Proofs.Rendering

/-
  Simplifying a tree keeps what it renders to.

  Main declarations:
    * `Pass.KeepsRendering`
    * `Pass.run_interchangeable`
    * `Simplifier`
    * `Chain.KeepsRendering`
    * `simplified_renders_alike`

  A pass keeps rendering if it refuses no tag and replaces
  each node by one with the same outcome.  Walking a tree
  then exchanges arguments of equal outcome, and running
  passes one after another does so again and again.
-/

------------------------------------------------------------
-- Passes That Keep Rendering
------------------------------------------------------------

namespace TemplateTree

open Render

namespace Pass

/-
  A pass that refuses no tag, and whose change of a node is
  not seen in its outcome.
-/
structure KeepsRendering (pass : Pass) : Prop where
  accepts (tag : Tag) : pass.refuses tag = false
  exchanges (node : Node) :
    pass.handles node.tag = true →
      ∃ node',
        pass.transform node = .ok node' ∧
          Interchangeable node.toArg node'.toArg

/- Trees around arguments of equal outcome have equal outcomes. -/
theorem interchangeable_congruence :
    Arg.Congruence Interchangeable where
  refl := Interchangeable.refl
  trans := Interchangeable.trans
  node := fun tag _ _ hArgs =>
    ⟨rfl, fun bindings => outcome_congr bindings tag hArgs⟩

/- A pass that keeps rendering gives a tree like the first. -/
theorem run_interchangeable
    {pass : Pass}
    (hPass : pass.KeepsRendering)
    (tree : Node) :
    ∃ tree',
      pass.run tree = .ok tree' ∧
        Interchangeable tree.toArg tree'.toArg := by
  have hExchanges : pass.Exchanges Interchangeable :=
    ⟨hPass.accepts, hPass.exchanges⟩
  exact hExchanges.run interchangeable_congruence tree

end Pass

------------------------------------------------------------
-- Merging Static Texts
------------------------------------------------------------

namespace MergeStatic

/- A static text that can be merged renders as it stands. -/
theorem outcome_of_staticText?
    (bindings : Bindings)
    {arg : Arg}
    {text : String}
    (h : staticText? arg = some text) :
    outcome bindings arg = .ok text := by
  unfold staticText? at h
  split at h
  · next tag inner =>
      split at h
      · next hTag =>
          cases inner with
          | node tag' args' => cases h
          | literal value =>
              cases value with
              | text value =>
                  cases h
                  rw [hTag]
                  exact outcome_static bindings text
              | int value => cases h
              | float value => cases h
              | bool value => cases h
      · cases h
  · cases h

/- A run of static texts renders as their concatenation. -/
theorem outcomes_runArgs
    (bindings : Bindings)
    (before : Option String) :
    outcomes bindings (runArgs before) =
      .ok (before.getD "") := by
  cases before with
  | none => exact outcomes_nil bindings
  | some text =>
      rw [runArgs, outcomes_singleton, outcome_static]
      rfl

/-
  Merging after a run of static texts renders as the run
  followed by the arguments.
-/
theorem outcomes_mergeFrom
    (bindings : Bindings)
    (before : Option String)
    (args : List Arg) :
    outcomes bindings (mergeFrom before args) =
      (outcomes bindings args).map
        (before.getD "" ++ ·) := by
  induction args generalizing before with
  | nil =>
      rw [mergeFrom, outcomes_runArgs, outcomes_nil]
      simp
  | cons arg args ih =>
      rw [mergeFrom, outcomes_cons]
      cases hStatic : staticText? arg with
      | some text =>
          simp only
          rw [ih, outcome_of_staticText? bindings hStatic]
          cases outcomes bindings args with
          | error error => simp
          | ok rest => simp [String.append_assoc]
      | none =>
          simp only
          rw [outcomes_append, outcomes_runArgs,
            outcomes_cons, ih]
          cases outcome bindings arg with
          | error error => simp
          | ok first =>
              cases outcomes bindings args with
              | error error => simp
              | ok rest => simp

/- Merging static texts keeps what a tree renders to. -/
theorem pass_keepsRendering : pass.KeepsRendering where
  accepts := fun tag => by simp [Pass.refuses, pass]
  exchanges := by
    intro node hHandles
    have hTag : node.tag = CoreTag.sequence.name := by
      simpa [pass] using hHandles
    refine ⟨node.withArgs (merge node.args), rfl, ?_⟩
    apply Interchangeable.ofNodes
    intro bindings
    unfold Node.toArg Node.withArgs
    rw [hTag, outcome_sequence, outcome_sequence, merge,
      outcomes_mergeFrom]
    cases outcomes bindings node.args with
    | error error => rfl
    | ok text => simp

end MergeStatic

------------------------------------------------------------
-- Evaluating Literal Expressions
------------------------------------------------------------

namespace InlineDynamic

/- A dynamic node with a known value renders as the value. -/
theorem outcome_of_value?
    (bindings : Bindings)
    {node : Node}
    {value : Literal}
    (hTag : node.tag = CoreTag.dynamic.name)
    (hValue : value? node = some value) :
    outcome bindings node.toArg = .ok value.rendered := by
  have hCore : Tag.core? node.tag = some .dynamic :=
    Tag.core?_eq_some_iff.mpr hTag
  have hRender :
      renderDynamic bindings node = .ok value.rendered := by
    unfold value? at hValue
    split at hValue
    · next arg hArgs =>
        rcases Option.bind_eq_some_iff.mp hValue with
          ⟨expression, hText, hLiteral⟩
        have hSingle : singleText node = .ok expression := by
          simp [singleText, hArgs, hText]
        have hEvaluate :
            evaluate bindings expression = .ok value := by
          simp [evaluate, hLiteral]
        simp [renderDynamic, hSingle, hEvaluate]
    · cases hValue
  simp [outcome, Node.toArg, renderArg, hCore, hRender]

/- Evaluating ahead of time keeps what a tree renders to. -/
theorem pass_keepsRendering : pass.KeepsRendering where
  accepts := fun tag => by simp [Pass.refuses, pass]
  exchanges := by
    intro node hHandles
    have hTag : node.tag = CoreTag.dynamic.name := by
      simpa [pass] using hHandles
    refine ⟨inline node, rfl, ?_⟩
    apply Interchangeable.ofNodes
    intro bindings
    unfold inline
    cases hValue : value? node with
    | none => rfl
    | some value =>
        rw [outcome_of_value? bindings hTag hValue,
          outcome_static]

end InlineDynamic

------------------------------------------------------------
-- Splicing Nested Sequences
------------------------------------------------------------

namespace Flatten

/- Splicing one argument keeps what it renders to. -/
theorem outcomes_splice
    (bindings : Bindings)
    (arg : Arg) :
    outcomes bindings (splice arg) = outcome bindings arg := by
  cases arg with
  | literal value =>
      exact outcomes_singleton bindings (.literal value)
  | node tag args =>
      rw [splice]
      by_cases hTag : tag = CoreTag.sequence.name
      · rw [if_pos hTag, hTag, outcome_sequence]
      · rw [if_neg hTag, outcomes_singleton]

/- Splicing all arguments keeps what they render to. -/
theorem outcomes_flatMap_splice
    (bindings : Bindings)
    (args : List Arg) :
    outcomes bindings (args.flatMap splice) =
      outcomes bindings args := by
  induction args with
  | nil => rfl
  | cons arg args ih =>
      rw [List.flatMap_cons, outcomes_append, outcomes_cons,
        outcomes_splice, ih]

/- A flattened sequence renders as its arguments did. -/
theorem outcome_flatten
    (bindings : Bindings)
    (unwrapSingle : Bool)
    {node : Node}
    (hTag : node.tag = CoreTag.sequence.name) :
    outcome bindings (flatten unwrapSingle node).toArg =
      outcomes bindings node.args := by
  have hKept :
      outcome bindings
          (node.withArgs (node.args.flatMap splice)).toArg =
        outcomes bindings node.args := by
    unfold Node.toArg Node.withArgs
    rw [hTag, outcome_sequence, outcomes_flatMap_splice]
  unfold flatten
  dsimp only
  split
  · next tag inner hArgs =>
      split
      · rw [← outcomes_flatMap_splice, hArgs,
          outcomes_singleton, Node.toArg]
      · exact hKept
  · exact hKept

/- Flattening keeps what a tree renders to. -/
theorem pass_keepsRendering
    (unwrapSingle : Bool) :
    (pass unwrapSingle).KeepsRendering where
  accepts := fun tag => by simp [Pass.refuses, pass]
  exchanges := by
    intro node hHandles
    have hTag : node.tag = CoreTag.sequence.name := by
      simpa [pass] using hHandles
    refine ⟨flatten unwrapSingle node, rfl, ?_⟩
    apply Interchangeable.ofNodes
    intro bindings
    rw [outcome_flatten bindings unwrapSingle hTag,
      Node.toArg, hTag, outcome_sequence]

end Flatten

------------------------------------------------------------
-- Engines Of Simplifiers
------------------------------------------------------------

/- The passes that rewrite a tree to a simpler one. -/
inductive Simplifier where
| mergeStatic
| inlineDynamic
| flatten (unwrapSingle : Bool)
deriving DecidableEq, Repr

namespace Simplifier

/- The pass of a simplifier. -/
def pass : Simplifier → Pass
| .mergeStatic => MergeStatic.pass
| .inlineDynamic => InlineDynamic.pass
| .flatten unwrapSingle => Flatten.pass unwrapSingle

/- A simplifier as a stage of an engine. -/
def stage (simplifier : Simplifier) : Stage Node Node :=
  Catalogue.ofPass simplifier.pass

/- An engine that runs simplifiers one after another. -/
def engine
    (name : String)
    (simplifiers : List Simplifier) : Engine Node Node where
  name := name
  chain :=
    simplifiers.foldl
      (fun chain simplifier => chain.snoc simplifier.stage)
      .nil

/- A draft to which simplifiers are added one after another. -/
def draft
    (name : String)
    (simplifiers : List Simplifier) : Draft Node Node :=
  simplifiers.foldl
    (fun draft simplifier => draft.add simplifier.stage)
    (Draft.start name)

/- Each simplifier keeps what a tree renders to. -/
theorem pass_keepsRendering
    (simplifier : Simplifier) :
    simplifier.pass.KeepsRendering := by
  cases simplifier with
  | mergeStatic => exact MergeStatic.pass_keepsRendering
  | inlineDynamic => exact InlineDynamic.pass_keepsRendering
  | flatten unwrapSingle =>
      exact Flatten.pass_keepsRendering unwrapSingle

end Simplifier

/-
  A chain of stages that succeeds on every tree with a tree
  of the same outcome, in an engine of whatever name.
-/
def Chain.KeepsRendering (chain : Chain Node Node) : Prop :=
  ∀ (engine : String) (tree : Node),
    ∃ tree' : Node,
      (chain.run engine tree).result = .ok tree' ∧
        Interchangeable tree.toArg tree'.toArg

/- The chain without stages keeps rendering. -/
theorem Chain.keepsRendering_nil :
    (Chain.nil : Chain Node Node).KeepsRendering := by
  intro engine tree
  refine ⟨tree, ?_, Interchangeable.refl _⟩
  rw [Chain.run]

/- One more simplifier at the end keeps rendering. -/
theorem Chain.keepsRendering_snoc
    {before : Chain Node Node}
    (hBefore : before.KeepsRendering)
    (simplifier : Simplifier) :
    (before.snoc simplifier.stage).KeepsRendering := by
  intro engine tree
  rcases hBefore engine tree with ⟨middle, hMiddle, hFirst⟩
  rcases Pass.run_interchangeable
      simplifier.pass_keepsRendering middle with
    ⟨tree', hLast, hSecond⟩
  refine ⟨tree', ?_, hFirst.trans hSecond⟩
  apply Chain.result_run_snoc hMiddle
  rw [Simplifier.stage, Catalogue.ofPass, Stage.run]
  exact hLast

/- A run of simplifiers after a chain keeps rendering. -/
theorem Chain.keepsRendering_foldl
    {before : Chain Node Node}
    (hBefore : before.KeepsRendering)
    (simplifiers : List Simplifier) :
    (simplifiers.foldl
      (fun chain simplifier => chain.snoc simplifier.stage)
      before).KeepsRendering := by
  induction simplifiers generalizing before with
  | nil => exact hBefore
  | cons simplifier simplifiers ih =>
      rw [List.foldl_cons]
      exact ih (Chain.keepsRendering_snoc hBefore simplifier)

namespace Simplifier

/- Adding simplifiers to a draft only extends its chain. -/
theorem foldl_add
    (draft : Draft Node Node)
    (simplifiers : List Simplifier) :
    simplifiers.foldl
        (fun draft simplifier => draft.add simplifier.stage)
        draft =
      { draft with
        chain := simplifiers.foldl
          (fun chain simplifier =>
            chain.snoc simplifier.stage)
          draft.chain } := by
  induction simplifiers generalizing draft with
  | nil => rfl
  | cons simplifier simplifiers ih =>
      rw [List.foldl_cons, ih]
      rfl

/- A draft of simplifiers has no options to complain about. -/
theorem build_draft
    (name : String)
    (simplifiers : List Simplifier) :
    (draft name simplifiers).build =
      .ok (engine name simplifiers) := by
  unfold draft
  rw [foldl_add]
  rfl

end Simplifier

/-
  An engine of any simplifiers, in any order and number, can
  be built and succeeds on every tree.  What the tree before
  and the tree after render to agrees for all bindings.
-/
theorem simplified_renders_alike
    (name : String)
    (simplifiers : List Simplifier) :
    (Simplifier.draft name simplifiers).build =
        .ok (Simplifier.engine name simplifiers) ∧
      ∀ tree : Node,
        ∃ tree' : Node,
          ((Simplifier.engine name simplifiers).run
              tree).result = .ok tree' ∧
            ∀ bindings : Bindings,
              Agree (render bindings tree)
                (render bindings tree') := by
  refine ⟨Simplifier.build_draft name simplifiers, ?_⟩
  intro tree
  have hChain :=
    Chain.keepsRendering_foldl Chain.keepsRendering_nil
      simplifiers
  rcases hChain name tree with ⟨tree', hRun, hTree⟩
  refine ⟨tree', hRun, ?_⟩
  intro bindings
  exact agree_of_outcome_eq (hTree.outcome bindings)

end TemplateTree
