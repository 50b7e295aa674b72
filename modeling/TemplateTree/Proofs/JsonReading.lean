import TemplateTree.Json.Reader
import TemplateTree.Proofs.Except

/-
  The readers of JSON texts, taken apart.

  Main declarations:
    * `Json.readWord_eq_ok_iff`
    * `Json.readScalar_cases`
    * `Json.readArgs_cases`
    * `Json.readNode_cases`
    * `Json.readArg_cases`
    * `Json.readRoot_cases`

  A reader that succeeds has taken its bytes in one of a few
  ways.  Each statement here names the bytes that were taken
  and the readers that took them.
-/

------------------------------------------------------------
-- Scalars
------------------------------------------------------------

namespace TemplateTree

namespace Json

theorem readWord_eq_ok_iff
    {word bytes rest : List UInt8} :
    readWord word bytes = .ok ((), rest) ↔
      bytes = word ++ rest := by
  fun_induction readWord word bytes with
  | case1 bytes => simp
  | case2 w word => simp
  | case3 word b bytes ih => simpa using ih
  | case4 w word b bytes hNe => simp [hNe]

/- The scalars that are words, with their bytes. -/
def keywords : List (List UInt8 × Scalar) :=
  [(byte 'n' :: nullTail, .null),
    (byte 't' :: trueTail, .bool true),
    (byte 'f' :: falseTail, .bool false)]

/- The sign of a number. -/
def signBytes (negative : Bool) : List UInt8 :=
  if negative then [byte '-'] else []

theorem readScalar_keyword
    {found scalar : Scalar}
    {word bytes rest : List UInt8}
    (h :
      (readWord word bytes).map (fun read => (found, read.2)) =
        .ok (scalar, rest)) :
    scalar = found ∧ bytes = word ++ rest := by
  rcases Except.map_eq_ok_iff.mp h with
    ⟨⟨_, after⟩, hWord, hEq⟩
  cases hEq
  exact ⟨rfl, readWord_eq_ok_iff.mp hWord⟩

/- A scalar is a word, a number or a string. -/
theorem readScalar_cases
    {first : UInt8}
    {bytes rest : List UInt8}
    {scalar : Scalar}
    (h : readScalar first bytes = .ok (scalar, rest)) :
    (∃ word,
        (word, scalar) ∈ keywords ∧
          first :: bytes = word ++ rest) ∨
      (∃ negative after n,
        first :: bytes = signBytes negative ++ after ∧
          readNumber negative after = .ok (n, rest) ∧
            scalar = .number n) ∨
      ∃ text,
        first = byte '"' ∧
          readString bytes = .ok (text, rest) ∧
            scalar = .string text := by
  unfold readScalar at h
  split at h
  · next hFirst =>
      subst hFirst
      rcases readScalar_keyword h with ⟨rfl, rfl⟩
      exact
        .inl ⟨byte 'n' :: nullTail, by simp [keywords], rfl⟩
  split at h
  · next hFirst =>
      subst hFirst
      rcases readScalar_keyword h with ⟨rfl, rfl⟩
      exact
        .inl ⟨byte 't' :: trueTail, by simp [keywords], rfl⟩
  split at h
  · next hFirst =>
      subst hFirst
      rcases readScalar_keyword h with ⟨rfl, rfl⟩
      exact
        .inl ⟨byte 'f' :: falseTail, by simp [keywords], rfl⟩
  split at h
  · next hFirst =>
      subst hFirst
      rcases Except.map_eq_ok_iff.mp h with
        ⟨⟨n, after⟩, hNumber, hEq⟩
      cases hEq
      exact .inr (.inl ⟨true, bytes, n, rfl, hNumber, rfl⟩)
  split at h
  · rcases Except.map_eq_ok_iff.mp h with
      ⟨⟨n, after⟩, hNumber, hEq⟩
    cases hEq
    exact .inr (.inl ⟨false, first :: bytes, n, rfl, hNumber, rfl⟩)
  split at h
  · next hFirst =>
      rcases Except.map_eq_ok_iff.mp h with
        ⟨⟨text, after⟩, hString, hEq⟩
      cases hEq
      exact .inr (.inr ⟨text, hFirst, hString, rfl⟩)
  · cases h

/- What is refused is not read. -/
theorem refuse_ne_ok
    {α : Type}
    (expected : Expected)
    (first : UInt8)
    (bytes : List UInt8)
    (result : α × List UInt8) :
    refuse expected first bytes ≠ .ok result := by
  intro h
  rw [refuse] at h
  split at h
  · cases h
  · split at h
    · cases h
    · rcases Except.bind_eq_ok_iff.mp h with
        ⟨scalar, -, hError⟩
      cases hError

------------------------------------------------------------
-- Nodes
------------------------------------------------------------

/- Arguments are at their end, or go on after a comma. -/
theorem readArgs_cases
    {read : List UInt8 → Step Arg}
    {fuel : Nat}
    {bytes rest : List UInt8}
    {args : List Arg}
    (h : readArgs read fuel bytes = .ok (args, rest)) :
    (skipBlank bytes = byte ']' :: rest ∧ args = []) ∨
      ∃ inner next arg between others,
        fuel = inner + 1 ∧
          skipBlank bytes = byte ',' :: next ∧
          read (skipBlank next) = .ok (arg, between) ∧
          readArgs read inner between = .ok (others, rest) ∧
            args = arg :: others := by
  cases fuel with
  | zero => cases h
  | succ fuel =>
      rw [readArgs] at h
      split at h
      · cases h
      · next b after hBytes =>
          split at h
          · next hClose =>
              cases h
              rw [hClose] at hBytes
              exact .inl ⟨hBytes, rfl⟩
          · split at h
            · next hComma =>
                split at h
                · cases h
                · next c next hNext =>
                    split at h
                    · cases h
                    · rcases Except.bind_eq_ok_iff.mp h with
                        ⟨⟨arg, between⟩, hArg, hOthers⟩
                      rcases Except.map_eq_ok_iff.mp hOthers with
                        ⟨⟨others, last⟩, hOthers, hEq⟩
                      cases hEq
                      rw [hComma] at hBytes
                      rw [← hNext] at hArg
                      exact
                        .inr ⟨fuel, after, arg, between, others, rfl,
                          hBytes, hArg, hOthers, rfl⟩
            · cases h

/- A node is its tag, which is a string, and its arguments. -/
theorem readNode_cases
    {read : List UInt8 → Step Arg}
    {bytes rest : List UInt8}
    {node : Node}
    (h : readNode read bytes = .ok (node, rest)) :
    ∃ quoted after fuel,
      skipBlank bytes = byte '"' :: quoted ∧
        readString quoted = .ok (node.tag, after) ∧
          readArgs read fuel after = .ok (node.args, rest) := by
  rw [readNode] at h
  split at h
  · cases h
  · next b quoted hBytes =>
      split at h
      · cases h
      · rcases Except.bind_eq_ok_iff.mp h with
          ⟨⟨tag, after⟩, hTag, hArgs⟩
        rcases Except.map_eq_ok_iff.mp hArgs with
          ⟨⟨args, last⟩, hArgs, hEq⟩
        cases hEq
        rw [readTag] at hTag
        split at hTag
        · next hQuote =>
            rw [hQuote] at hBytes
            exact ⟨quoted, after, _, hBytes, hTag, hArgs⟩
        · exact absurd hTag (refuse_ne_ok _ _ _ _)

/- An argument is a scalar, or a node with room for it. -/
theorem readArg_cases
    {room : Nat}
    {bytes rest : List UInt8}
    {arg : Arg}
    (h : readArg room bytes = .ok (arg, rest)) :
    (∃ first after scalar value,
        skipBlank bytes = first :: after ∧
          readScalar first after = .ok (scalar, rest) ∧
          scalar.toLiteral = .ok value ∧
            arg = .literal value) ∨
      ∃ inner after node,
        room = inner + 1 ∧
          skipBlank bytes = byte '[' :: after ∧
          readNode (readArg inner) after = .ok (node, rest) ∧
            arg = node.toArg := by
  unfold readArg at h
  split at h
  · cases h
  · next first after hBytes =>
      split at h
      · next hOpen =>
          cases room with
          | zero => cases h
          | succ inner =>
              rcases Except.map_eq_ok_iff.mp h with
                ⟨⟨node, last⟩, hNode, hEq⟩
              cases hEq
              rw [hOpen] at hBytes
              exact .inr ⟨inner, after, node, rfl, hBytes, hNode, rfl⟩
      · split at h
        · cases h
        · rcases Except.bind_eq_ok_iff.mp h with
            ⟨⟨scalar, last⟩, hScalar, hLiteral⟩
          cases hValue : scalar.toLiteral with
          | error fault => simp [hValue] at hLiteral
          | ok value =>
              simp only [hValue, Except.ok.injEq,
                Prod.mk.injEq] at hLiteral
              rcases hLiteral with ⟨rfl, rfl⟩
              exact
                .inl ⟨first, after, scalar, value, hBytes, hScalar,
                  hValue, rfl⟩

/- A root is a node. -/
theorem readRoot_cases
    {bytes rest : List UInt8}
    {node : Node}
    (h : readRoot bytes = .ok (node, rest)) :
    ∃ after,
      skipBlank bytes = byte '[' :: after ∧
        readNode (readArg (Node.maxDepth - 1)) after =
          .ok (node, rest) := by
  rw [readRoot] at h
  split at h
  · cases h
  · next b after hBytes =>
      split at h
      · next hOpen =>
          rw [hOpen] at hBytes
          exact ⟨after, hBytes, h⟩
      · exact absurd h (refuse_ne_ok _ _ _ _)

end Json

end TemplateTree
