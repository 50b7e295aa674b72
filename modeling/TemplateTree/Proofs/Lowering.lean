import TemplateTree.Pass.ControlFlow
import TemplateTree.Proofs.CoreTrees

/-
  Conditions and loops that can be lowered.

  Main declarations:
    * `ControlFlow.exists_of_lowerIf`
    * `ControlFlow.exists_of_lowerLoop`
    * `ControlFlow.finish_other`

  A condition or a loop that was lowered had code that is not
  blank as its first argument, and nodes as the others.
-/

------------------------------------------------------------
-- Lowering One Node
------------------------------------------------------------

namespace TemplateTree

namespace ControlFlow

theorem condition_eq_ok_iff
    {arg : Arg}
    {code : String} :
    condition arg = .ok code ↔
      ∃ text,
        arg = Arg.text text ∧
          Text.trim text = code ∧ code ≠ "" := by
  unfold condition
  cases hText : arg.asText? with
  | none =>
      have hNot : ∀ text, arg ≠ Arg.text text := by
        intro text hArg
        simp [hArg] at hText
      simp [hNot]
  | some text =>
      rw [Arg.asText?_eq_some_iff] at hText
      subst hText
      by_cases hBlank : Text.trim text = ""
      · simp [hBlank, Arg.text]
      · have hCode : Text.trim text = code → code ≠ "" := by
          rintro rfl
          exact hBlank
        simpa [hBlank, Arg.text] using hCode

theorem branch_eq_ok_iff
    {arg : Arg}
    {node : Node} :
    branch arg = .ok node ↔ arg = node.toArg := by
  cases arg with
  | literal value => simp [branch, Arg.asNode?, Node.toArg]
  | node tag args =>
      cases node
      simp [branch, Arg.asNode?, Node.toArg]

/- A lowered condition had one branch or two. -/
theorem exists_of_lowerIf
    {args : List Arg}
    {node : Node}
    (h : lowerIf args = .ok node) :
    (∃ test body,
        args = [Arg.text test, Node.toArg body] ∧
          node =
            Node.sequence
              [opening ("if " ++ Text.trim test), body,
                closing]) ∨
      ∃ test body other,
        args =
            [Arg.text test, Node.toArg body,
              Node.toArg other] ∧
          node =
            Node.sequence
              [opening ("if " ++ Text.trim test), body,
                otherwise, other, closing] := by
  unfold lowerIf at h
  split at h
  · next test body =>
      simp only [Except.bind_eq_ok_iff, Except.map_eq_ok_iff,
        condition_eq_ok_iff, branch_eq_ok_iff] at h
      rcases h with
        ⟨code, ⟨text, rfl, rfl, -⟩, inner, rfl, rfl⟩
      exact Or.inl ⟨text, inner, rfl, rfl⟩
  · next test body other =>
      simp only [Except.bind_eq_ok_iff, Except.map_eq_ok_iff,
        condition_eq_ok_iff, branch_eq_ok_iff] at h
      rcases h with
        ⟨code, ⟨text, rfl, rfl, -⟩, inner, rfl, last, rfl, rfl⟩
      exact Or.inr ⟨text, inner, last, rfl, rfl⟩
  · cases h

/- A lowered loop had a header and a body. -/
theorem exists_of_lowerLoop
    {args : List Arg}
    {node : Node}
    (h : lowerLoop args = .ok node) :
    ∃ header body,
      args = [Arg.text header, Node.toArg body] ∧
        Text.trim header ≠ "" ∧
          node =
            Node.sequence
              [opening (Text.trim header), body, closing] := by
  unfold lowerLoop at h
  split at h
  · next header body =>
      simp only [Except.bind_eq_ok_iff, Except.map_eq_ok_iff,
        condition_eq_ok_iff, branch_eq_ok_iff] at h
      rcases h with
        ⟨code, ⟨text, rfl, rfl, hBlank⟩, inner, rfl, rfl⟩
      exact ⟨text, inner, rfl, hBlank, rfl⟩
  · cases h

theorem finish_cond
    {passThrough : TagSet}
    {args : List Arg}
    {node : Node} :
    (pass passThrough).finish Tag.cond args = .ok node ↔
      lowerIf args = .ok node := by
  simp [Pass.finish, pass, lower, Except.mapError_eq_ok_iff]

theorem finish_loop
    {passThrough : TagSet}
    {args : List Arg}
    {node : Node} :
    (pass passThrough).finish Tag.loop args = .ok node ↔
      lowerLoop args = .ok node := by
  simp [Pass.finish, pass, lower, Tag.loop, Tag.cond,
    Except.mapError_eq_ok_iff]

theorem finish_other
    {passThrough : TagSet}
    {tag : Tag}
    (hCond : tag ≠ Tag.cond)
    (hLoop : tag ≠ Tag.loop)
    (args : List Arg) :
    (pass passThrough).finish tag args = .ok ⟨tag, args⟩ := by
  simp [Pass.finish, pass, hCond, hLoop]

end ControlFlow

end TemplateTree
