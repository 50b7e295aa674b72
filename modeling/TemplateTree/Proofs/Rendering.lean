import Mathlib.Data.List.Forall2
import TemplateTree.Proofs.Except
import TemplateTree.Render

/-
  What rendering tells its reader.

  Main declarations:
    * `CompileError.unblamed`
    * `Render.Agree`
    * `Render.outcome`
    * `Render.outcomes_append`
    * `Render.Interchangeable`
    * `Render.outcome_congr`
    * `Render.agree_of_outcome_eq`

  A failure blames a node, and changing a tree changes the
  nodes there are to blame.  Apart from that, the outcome of
  rendering an argument does not depend on what stands
  around it, so sequences can be regrouped and arguments
  with equal outcomes exchanged.
-/

------------------------------------------------------------
-- Agreement
------------------------------------------------------------

namespace TemplateTree

/-
  An error without the node that it blames.  The tag of a
  misshapen node stays, since the wording mentions it.
-/
def CompileError.unblamed : CompileError → CompileError
| .shape stage node text => .shape stage ⟨node.tag, []⟩ text
| .generation stage _ text => .generation stage none text
| error => error

namespace Render

/-
  Two outcomes of rendering agree: they are the same text, or
  errors of the same kind from the same stage with the same
  message, whichever node they blame.
-/
inductive Agree :
    Except CompileError String →
      Except CompileError String → Prop where
| text
    (value : String) :
    Agree (.ok value) (.ok value)
| shape
    (stage message : String)
    (left right : Node)
    (hTag : left.tag = right.tag) :
    Agree (.error (.shape stage left message))
      (.error (.shape stage right message))
| generation
    (stage message : String)
    (left right : Option Node) :
    Agree (.error (.generation stage left message))
      (.error (.generation stage right message))

/- An error of the kinds that rendering fails with. -/
def IsRenderError : CompileError → Prop
| .shape _ _ _ => True
| .generation _ _ _ => True
| _ => False

/- A fault is reported as an error of rendering. -/
theorem isRenderError_on
    (node : Node)
    (fault : Fault) :
    IsRenderError (fault.on node) := by
  cases fault <;> exact trivial

/- Errors that differ in the blamed node agree. -/
theorem agree_of_unblamed_eq
    {left right : CompileError}
    (hLeft : IsRenderError left)
    (hEq : left.unblamed = right.unblamed) :
    Agree (.error left) (.error right) := by
  cases left with
  | shape stage node text =>
      cases right with
      | shape stage' node' text' =>
          simp only [CompileError.unblamed,
            CompileError.shape.injEq, Node.mk.injEq,
            and_true] at hEq
          rcases hEq with ⟨rfl, hTag, rfl⟩
          exact Agree.shape _ _ _ _ hTag
      | _ => simp [CompileError.unblamed] at hEq
  | generation stage node text =>
      cases right with
      | generation stage' node' text' =>
          simp only [CompileError.unblamed,
            CompileError.generation.injEq,
            true_and] at hEq
          rcases hEq with ⟨rfl, rfl⟩
          exact Agree.generation _ _ _ _
      | _ => simp [CompileError.unblamed] at hEq
  | _ => exact hLeft.elim

/- The unblamed error of a fault depends on the tag alone. -/
theorem unblamed_on
    (tag : Tag)
    (args args' : List Arg)
    (fault : Fault) :
    (fault.on ⟨tag, args⟩).unblamed =
      (fault.on ⟨tag, args'⟩).unblamed := by
  cases fault <;> rfl

------------------------------------------------------------
-- Outcomes
------------------------------------------------------------

/-
  What rendering an argument of some sequence tells, the
  blamed node apart.
-/
def outcome
    (bindings : Bindings)
    (arg : Arg) : Except CompileError String :=
  (renderArg bindings Node.empty arg).mapError
    CompileError.unblamed

/- What rendering the arguments of some sequence tells. -/
def outcomes
    (bindings : Bindings)
    (args : List Arg) : Except CompileError String :=
  (renderArgs bindings Node.empty args).mapError
    CompileError.unblamed

/- The parent of an argument is only ever blamed. -/
theorem unblamed_renderArg
    (bindings : Bindings)
    (parent : Node)
    (arg : Arg) :
    (renderArg bindings parent arg).mapError
        CompileError.unblamed =
      outcome bindings arg := by
  unfold outcome
  cases arg with
  | literal value => simp [renderArg, Fault.on, CompileError.unblamed]
  | node tag args => simp only [renderArg]

@[simp] theorem outcomes_nil
    (bindings : Bindings) :
    outcomes bindings [] = .ok "" := by
  simp [outcomes, renderArgs]

/- The first failure among arguments is the outcome. -/
theorem unblamed_renderArgs_cons
    (bindings : Bindings)
    (parent : Node)
    (arg : Arg)
    (args : List Arg) :
    (renderArgs bindings parent (arg :: args)).mapError
        CompileError.unblamed =
      (outcome bindings arg).bind fun first =>
        ((renderArgs bindings parent args).mapError
          CompileError.unblamed).map (first ++ ·) := by
  rw [← unblamed_renderArg bindings parent arg, renderArgs]
  cases renderArg bindings parent arg with
  | error error => simp
  | ok first =>
      cases renderArgs bindings parent args with
      | error error => simp
      | ok rest => simp

/- The parent of arguments is only ever blamed. -/
theorem unblamed_renderArgs
    (bindings : Bindings)
    (parent : Node)
    (args : List Arg) :
    (renderArgs bindings parent args).mapError
        CompileError.unblamed =
      outcomes bindings args := by
  induction args with
  | nil => simp [renderArgs]
  | cons arg args ih =>
      rw [unblamed_renderArgs_cons, ih, outcomes, outcomes,
        unblamed_renderArgs_cons]

theorem outcomes_cons
    (bindings : Bindings)
    (arg : Arg)
    (args : List Arg) :
    outcomes bindings (arg :: args) =
      (outcome bindings arg).bind fun first =>
        (outcomes bindings args).map (first ++ ·) :=
  unblamed_renderArgs_cons bindings Node.empty arg args

/- Arguments render one after another. -/
theorem outcomes_append
    (bindings : Bindings)
    (args args' : List Arg) :
    outcomes bindings (args ++ args') =
      (outcomes bindings args).bind fun first =>
        (outcomes bindings args').map (first ++ ·) := by
  induction args with
  | nil =>
      rw [List.nil_append, outcomes_nil]
      cases outcomes bindings args' with
      | error error => simp
      | ok rest => simp
  | cons arg args ih =>
      rw [List.cons_append, outcomes_cons, outcomes_cons, ih]
      cases outcome bindings arg with
      | error error => simp
      | ok first =>
          cases outcomes bindings args with
          | error error => simp
          | ok middle =>
              cases outcomes bindings args' with
              | error error => simp
              | ok rest => simp [String.append_assoc]

/- A single argument renders as it does among others. -/
theorem outcomes_singleton
    (bindings : Bindings)
    (arg : Arg) :
    outcomes bindings [arg] = outcome bindings arg := by
  rw [outcomes_cons]
  cases outcome bindings arg with
  | error error => simp
  | ok first => simp

/- A nested sequence renders as its arguments. -/
theorem outcome_sequence
    (bindings : Bindings)
    (args : List Arg) :
    outcome bindings (.node CoreTag.sequence.name args) =
      outcomes bindings args := by
  have hCore :
      Tag.core? CoreTag.sequence.name = some .sequence :=
    Tag.core?_eq_some_iff.mpr rfl
  rw [← unblamed_renderArgs bindings
    ⟨CoreTag.sequence.name, args⟩ args]
  simp [outcome, renderArg, hCore]

/- A static node with one text renders as that text. -/
theorem outcome_static
    (bindings : Bindings)
    (text : String) :
    outcome bindings (Node.static text).toArg = .ok text := by
  have hCore :
      Tag.core? CoreTag.static.name = some .static :=
    Tag.core?_eq_some_iff.mpr rfl
  simp [outcome, renderArg, Node.static, Node.ofText,
    Node.toArg, hCore, singleText, Arg.text, Arg.asText?,
    Arg.asLiteral?, Literal.asText?]

/- The text of a node is told by its literals. -/
theorem singleText_eq_of_literals
    (tag : Tag)
    {args args' : List Arg}
    (h : args.map Arg.asLiteral? = args'.map Arg.asLiteral?) :
    singleText ⟨tag, args⟩ = singleText ⟨tag, args'⟩ := by
  have hLength : args.length = args'.length := by
    simpa only [List.length_map] using congrArg List.length h
  match args, args', hLength with
  | [], [], _ => rfl
  | [arg], [arg'], _ =>
      rw [List.map_singleton, List.map_singleton,
        List.singleton_inj] at h
      simp only [singleText, Arg.asText?, h]
  | _ :: _ :: _, _ :: _ :: _, hLength =>
      simp only [singleText, hLength]

/- So is the outcome of a node that is no sequence. -/
theorem outcome_eq_of_literals
    (bindings : Bindings)
    {tag : Tag}
    (hTag : tag ≠ CoreTag.sequence.name)
    {args args' : List Arg}
    (h : args.map Arg.asLiteral? = args'.map Arg.asLiteral?) :
    outcome bindings (.node tag args) =
      outcome bindings (.node tag args') := by
  have hText := singleText_eq_of_literals tag h
  have hOn := unblamed_on tag args args'
  cases hCore : Tag.core? tag with
  | none => simp [outcome, renderArg, hCore, hOn]
  | some kind =>
      cases kind with
      | sequence =>
          exact absurd (Tag.core?_eq_some_iff.mp hCore) hTag
      | static =>
          simp [outcome, renderArg, hCore,
            Except.mapError_mapError, hOn, hText]
      | dynamic =>
          simp [outcome, renderArg, hCore, renderDynamic,
            Except.mapError_mapError, hOn, hText]
      | block => simp [outcome, renderArg, hCore, hOn]

------------------------------------------------------------
-- Exchange Of Arguments
------------------------------------------------------------

/-
  Arguments that may stand for each other in any tree: the
  same literal, or two nodes, with the same outcome.
-/
structure Interchangeable (arg arg' : Arg) : Prop where
  literal : arg.asLiteral? = arg'.asLiteral?
  outcome (bindings : Bindings) :
    outcome bindings arg = outcome bindings arg'

/- An argument may stand for itself. -/
theorem Interchangeable.refl
    (arg : Arg) :
    Interchangeable arg arg :=
  ⟨rfl, fun _ => rfl⟩

theorem Interchangeable.trans
    {a b c : Arg}
    (hAB : Interchangeable a b)
    (hBC : Interchangeable b c) :
    Interchangeable a c where
  literal := hAB.literal.trans hBC.literal
  outcome := fun bindings =>
    (hAB.outcome bindings).trans (hBC.outcome bindings)

/- Nodes with the same outcome may stand for each other. -/
theorem Interchangeable.ofNodes
    {node node' : Node}
    (hOutcome :
      ∀ bindings,
        Render.outcome bindings node.toArg =
          Render.outcome bindings node'.toArg) :
    Interchangeable node.toArg node'.toArg :=
  ⟨rfl, hOutcome⟩

theorem literals_of_interchangeable
    {args args' : List Arg}
    (h : List.Forall₂ Interchangeable args args') :
    args.map Arg.asLiteral? = args'.map Arg.asLiteral? := by
  induction h with
  | nil => rfl
  | cons hFirst hRest ih =>
      rw [List.map_cons, List.map_cons, hFirst.literal, ih]

/- Exchanging arguments keeps the outcome of a sequence. -/
theorem outcomes_congr
    (bindings : Bindings)
    {args args' : List Arg}
    (h : List.Forall₂ Interchangeable args args') :
    outcomes bindings args = outcomes bindings args' := by
  induction h with
  | nil => rfl
  | cons hFirst hRest ih =>
      rw [outcomes_cons, outcomes_cons,
        hFirst.outcome bindings, ih]

/- Exchanging arguments keeps the outcome of any node. -/
theorem outcome_congr
    (bindings : Bindings)
    (tag : Tag)
    {args args' : List Arg}
    (h : List.Forall₂ Interchangeable args args') :
    outcome bindings (.node tag args) =
      outcome bindings (.node tag args') := by
  by_cases hTag : tag = CoreTag.sequence.name
  · rw [hTag, outcome_sequence, outcome_sequence,
      outcomes_congr bindings h]
  · exact outcome_eq_of_literals bindings hTag
      (literals_of_interchangeable h)

------------------------------------------------------------
-- From Outcomes To Agreement
------------------------------------------------------------

mutual

/- Rendering an argument fails with an error of rendering. -/
theorem isRenderError_of_renderArg
    {bindings : Bindings}
    {parent : Node}
    {error : CompileError} :
    (arg : Arg) →
    renderArg bindings parent arg = .error error →
    IsRenderError error
| .literal value, h => by
    rw [renderArg] at h
    cases h
    exact isRenderError_on _ _
| .node tag args, h => by
    rw [renderArg] at h
    split at h
    · exact isRenderError_of_renderArgs args h
    · cases hText : singleText ⟨tag, args⟩ with
      | ok text => simp [hText] at h
      | error fault =>
          simp only [hText, Except.mapError_error] at h
          cases h
          exact isRenderError_on _ _
    · cases hText : renderDynamic bindings ⟨tag, args⟩ with
      | ok text => simp [hText] at h
      | error fault =>
          simp only [hText, Except.mapError_error] at h
          cases h
          exact isRenderError_on _ _
    · cases h
      exact isRenderError_on _ _
    · cases h
      exact isRenderError_on _ _

/- Rendering arguments fails with an error of rendering. -/
theorem isRenderError_of_renderArgs
    {bindings : Bindings}
    {parent : Node}
    {error : CompileError} :
    (args : List Arg) →
    renderArgs bindings parent args = .error error →
    IsRenderError error
| [], h => by
    rw [renderArgs] at h
    cases h
| arg :: args, h => by
    rw [renderArgs] at h
    cases hArg : renderArg bindings parent arg with
    | error cause =>
        simp only [hArg] at h
        cases h
        exact isRenderError_of_renderArg arg hArg
    | ok first =>
        cases hArgs : renderArgs bindings parent args with
        | error cause =>
            simp only [hArg, hArgs, Except.map_error] at h
            cases h
            exact isRenderError_of_renderArgs args hArgs
        | ok rest => simp [hArg, hArgs] at h

end

/- Results that tell the same agree. -/
theorem agree_of_mapError_eq
    {left right : Except CompileError String}
    (hLeft : ∀ error, left = .error error → IsRenderError error)
    (hEq :
      left.mapError CompileError.unblamed =
        right.mapError CompileError.unblamed) :
    Agree left right := by
  cases left with
  | error error =>
      cases right with
      | error error' =>
          exact agree_of_unblamed_eq (hLeft error rfl)
            (Except.error.inj hEq)
      | ok text => cases hEq
  | ok text =>
      cases right with
      | error error' => cases hEq
      | ok text' =>
          cases hEq
          exact Agree.text text

/- Trees with the same outcome render alike. -/
theorem agree_of_outcome_eq
    {bindings : Bindings}
    {node node' : Node}
    (hOutcome :
      outcome bindings node.toArg =
        outcome bindings node'.toArg) :
    Agree (render bindings node) (render bindings node') := by
  apply agree_of_mapError_eq
  · intro error hError
    exact isRenderError_of_renderArg _ hError
  · rw [render, render, unblamed_renderArg, unblamed_renderArg,
      hOutcome]

end Render

end TemplateTree
