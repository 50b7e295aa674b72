import TemplateTree.Pass.Validate
import TemplateTree.Proofs.EmittedPieces

/-
  Trees that programs are generated from.

  Main declarations:
    * `Arg.IsCore`
    * `Arg.pieces?`
    * `Arg.exists_pieces?_iff`
    * `Validate.run_eq_ok_iff`
    * `Generator.generate_eq_ok_iff`
    * `validate_accepts_iff_generators_accept`

  A tree is core if it is built from sequences of core trees
  and from static, dynamic and block nodes with one proper
  text.  The check of a tree and the walk that collects its
  pieces meet the nodes in different orders, and both accept
  the core trees and no others.
-/

------------------------------------------------------------
-- Texts Among Arguments
------------------------------------------------------------

namespace TemplateTree

/- The text of an argument is the argument's only content. -/
theorem Arg.asText?_eq_some_iff
    {arg : Arg}
    {text : String} :
    arg.asText? = some text ↔ arg = Arg.text text := by
  cases arg with
  | node tag args =>
      simp [Arg.asText?, Arg.asLiteral?, Arg.text]
  | literal value =>
      cases value <;>
        simp [Arg.asText?, Arg.asLiteral?, Literal.asText?,
          Arg.text]

@[simp] theorem Arg.asText?_text
    (text : String) :
    (Arg.text text).asText? = some text :=
  Arg.asText?_eq_some_iff.mpr rfl

/- A node can be told from its place among arguments. -/
theorem Node.toArg_inj
    {node node' : Node} :
    node.toArg = node'.toArg ↔ node = node' := by
  cases node
  cases node'
  simp [Node.toArg]

@[simp] theorem Arg.isNode_toArg
    (node : Node) :
    node.toArg.isNode = true := rfl

/- One text that satisfies a test, and nothing else. -/
theorem Validate.isOneText_iff
    (test : String → Bool)
    (args : List Arg) :
    isOneText test args = true ↔
      ∃ text, args = [Arg.text text] ∧ test text = true := by
  unfold isOneText
  split
  · next arg =>
      cases hText : arg.asText? with
      | none =>
          have hNot : ∀ text, arg ≠ Arg.text text := by
            intro text hArg
            simp [hArg] at hText
          simp [hNot]
      | some text =>
          rw [Arg.asText?_eq_some_iff] at hText
          simp [hText, Arg.text]
  · next hLength =>
      constructor
      · intro h
        cases h
      · rintro ⟨text, hArgs, -⟩
        exact absurd hArgs (hLength _)

namespace Piece

/- The only text of a node is all that it holds. -/
theorem singleText_eq_ok_iff
    {node : Node}
    {text : String} :
    singleText node = .ok text ↔
      node.args = [Arg.text text] := by
  unfold singleText
  split
  · next arg hArgs =>
      rw [hArgs]
      cases hText : arg.asText? with
      | none =>
          have hNot : arg ≠ Arg.text text := by
            intro hArg
            simp [hArg] at hText
          simp [hNot]
      | some found =>
          rw [Arg.asText?_eq_some_iff] at hText
          simp [hText, Arg.text]
  · next hLength =>
      constructor
      · intro h
        cases h
      · intro hArgs
        exact absurd hArgs (hLength _)

/- The code of a node is its only text, trimmed. -/
theorem codeText_eq_ok_iff
    {node : Node}
    {code : String} :
    codeText node = .ok code ↔
      ∃ text,
        node.args = [Arg.text text] ∧
          Text.trim text = code ∧ code ≠ "" := by
  unfold codeText
  rw [Except.bind_eq_ok_iff]
  constructor
  · rintro ⟨text, hText, hCode⟩
    by_cases hBlank : Text.trim text = ""
    · simp [hBlank] at hCode
    · simp only [hBlank, if_false, Except.ok.injEq] at hCode
      exact ⟨text, singleText_eq_ok_iff.mp hText, hCode,
        hCode ▸ hBlank⟩
  · rintro ⟨text, hArgs, rfl, hBlank⟩
    refine ⟨text, singleText_eq_ok_iff.mpr hArgs, ?_⟩
    simp [hBlank]

end Piece

------------------------------------------------------------
-- Core Trees
------------------------------------------------------------

namespace Arg

/- A node that programs can be generated from. -/
inductive IsCore : Arg → Prop where
| sequence
    {args : List Arg}
    (hArgs : ∀ arg ∈ args, IsCore arg) :
    IsCore (.node CoreTag.sequence.name args)
| static
    (text : String) :
    IsCore (Node.static text).toArg
| dynamic
    {expression : String}
    (hExpression : Text.trim expression ≠ "") :
    IsCore (Node.dynamic expression).toArg
| block
    {code : String}
    (hCode : Text.trim code ≠ "") :
    IsCore (Node.block code).toArg

/- What a core node looks like, by its tag. -/
theorem isCore_node_iff
    {tag : Tag}
    {args : List Arg} :
    IsCore (.node tag args) ↔
      (tag = CoreTag.sequence.name ∧ ∀ arg ∈ args, IsCore arg) ∨
      (tag = CoreTag.static.name ∧
        ∃ text, args = [Arg.text text]) ∨
      (tag = CoreTag.dynamic.name ∧
        ∃ text, args = [Arg.text text] ∧ Text.trim text ≠ "") ∨
      (tag = CoreTag.block.name ∧
        ∃ text,
          args = [Arg.text text] ∧ Text.trim text ≠ "") := by
  constructor
  · intro h
    generalize hArg : Arg.node tag args = arg at h
    cases h with
    | sequence hArgs =>
        cases hArg
        exact Or.inl ⟨rfl, hArgs⟩
    | static text =>
        cases hArg
        exact Or.inr (Or.inl ⟨rfl, text, rfl⟩)
    | dynamic hText =>
        cases hArg
        exact Or.inr (Or.inr (Or.inl ⟨rfl, _, rfl, hText⟩))
    | block hText =>
        cases hArg
        exact Or.inr (Or.inr (Or.inr ⟨rfl, _, rfl, hText⟩))
  · rintro (⟨rfl, hArgs⟩ | ⟨rfl, text, rfl⟩ |
      ⟨rfl, text, rfl, hText⟩ | ⟨rfl, text, rfl, hText⟩)
    · exact IsCore.sequence hArgs
    · exact IsCore.static text
    · exact IsCore.dynamic hText
    · exact IsCore.block hText

/- A literal is no core tree. -/
theorem not_isCore_literal
    (value : Literal) :
    ¬ IsCore (.literal value) := by
  intro h
  cases h

/- A core tree is a node. -/
theorem IsCore.isNode
    {arg : Arg}
    (h : IsCore arg) :
    arg.isNode = true := by
  cases arg with
  | literal value => exact absurd h (not_isCore_literal value)
  | node tag args => rfl

/- The tag of a core tree is a core tag. -/
theorem IsCore.tag
    {tag : Tag}
    {args : List Arg}
    (h : IsCore (.node tag args)) :
    ∃ kind, Tag.core? tag = some kind := by
  rcases isCore_node_iff.mp h with
    ⟨rfl, -⟩ | ⟨rfl, -⟩ | ⟨rfl, -⟩ | ⟨rfl, -⟩
  all_goals exact ⟨_, Tag.core?_eq_some_iff.mpr rfl⟩

theorem isCore_sequence_iff
    {args : List Arg} :
    IsCore (.node CoreTag.sequence.name args) ↔
      ∀ arg ∈ args, IsCore arg := by
  simp [isCore_node_iff, CoreTag.name]

theorem isCore_static_iff
    {args : List Arg} :
    IsCore (.node CoreTag.static.name args) ↔
      ∃ text, args = [Arg.text text] := by
  simp [isCore_node_iff, CoreTag.name]

theorem isCore_dynamic_iff
    {args : List Arg} :
    IsCore (.node CoreTag.dynamic.name args) ↔
      ∃ text, args = [Arg.text text] ∧ Text.trim text ≠ "" := by
  simp [isCore_node_iff, CoreTag.name]

theorem isCore_block_iff
    {args : List Arg} :
    IsCore (.node CoreTag.block.name args) ↔
      ∃ text, args = [Arg.text text] ∧ Text.trim text ≠ "" := by
  simp [isCore_node_iff, CoreTag.name]

end Arg

------------------------------------------------------------
-- The Check
------------------------------------------------------------

namespace Validate

/- A node is given back unless there is a complaint. -/
theorem check_eq_ok_iff
    {node node' : Node} :
    check node = .ok node' ↔
      complaint? node = none ∧ node' = node := by
  unfold check
  cases complaint? node with
  | none => simp [eq_comm]
  | some message => simp

/- There is no complaint about a sequence of nodes. -/
theorem complaint?_sequence_eq_none_iff
    {args : List Arg} :
    complaint? ⟨CoreTag.sequence.name, args⟩ = none ↔
      ∀ arg ∈ args, arg.isNode = true := by
  rw [← List.all_eq_true]
  cases h : args.all Arg.isNode <;>
    simp [complaint?, Tag.core?, CoreTag.name, h]

/- There is no complaint about a static node with a text. -/
theorem complaint?_static_eq_none_iff
    {args : List Arg} :
    complaint? ⟨CoreTag.static.name, args⟩ = none ↔
      ∃ text, args = [Arg.text text] := by
  have hOne := isOneText_iff (fun _ => true) args
  simp only [and_true] at hOne
  rw [← hOne]
  cases h : isOneText (fun _ => true) args <;>
    simp [complaint?, Tag.core?, CoreTag.name, h]

/- There is no complaint about code that is not blank. -/
theorem complaint?_code_eq_none_iff
    {kind : CoreTag}
    (hKind : kind = .dynamic ∨ kind = .block)
    {args : List Arg} :
    complaint? ⟨kind.name, args⟩ = none ↔
      ∃ text,
        args = [Arg.text text] ∧ Text.trim text ≠ "" := by
  have hOne :=
    isOneText_iff (fun code => Text.trim code != "") args
  simp only [bne_iff_ne] at hOne
  rw [← hOne]
  rcases hKind with rfl | rfl
  all_goals
    cases h : isOneText (fun code => Text.trim code != "") args <;>
      simp [complaint?, Tag.core?, CoreTag.name, h]

/-
  A node is core if its tag is, there is no complaint about
  its arguments, and the nodes among them are core again.
-/
theorem isCore_node_iff_complaint
    {tag : Tag}
    {args : List Arg} :
    Arg.IsCore (.node tag args) ↔
      Tag.isCore tag = true ∧
        complaint? ⟨tag, args⟩ = none ∧
          ∀ arg ∈ args, arg.isNode = true → arg.IsCore := by
  -- A text is no node, so below a leaf there is nothing to ask.
  have hText :
      ∀ text, ∀ arg ∈ [Arg.text text],
        arg.isNode = true → arg.IsCore := by
    intro text arg hArg hNode
    rw [List.mem_singleton] at hArg
    subst hArg
    cases hNode
  constructor
  · intro h
    refine ⟨?_, ?_⟩
    · rcases h.tag with ⟨kind, hKind⟩
      simp [Tag.isCore, hKind]
    · rcases Arg.isCore_node_iff.mp h with
        ⟨rfl, hArgs⟩ | ⟨rfl, text, rfl⟩ |
          ⟨rfl, text, rfl, hCode⟩ | ⟨rfl, text, rfl, hCode⟩
      · exact
          ⟨complaint?_sequence_eq_none_iff.mpr
              fun arg hArg => (hArgs arg hArg).isNode,
            fun arg hArg _ => hArgs arg hArg⟩
      · exact
          ⟨complaint?_static_eq_none_iff.mpr ⟨text, rfl⟩,
            hText text⟩
      · exact
          ⟨(complaint?_code_eq_none_iff (Or.inl rfl)).mpr
              ⟨text, rfl, hCode⟩,
            hText text⟩
      · exact
          ⟨(complaint?_code_eq_none_iff (Or.inr rfl)).mpr
              ⟨text, rfl, hCode⟩,
            hText text⟩
  · rintro ⟨hTag, hComplaint, hArgs⟩
    rcases Option.isSome_iff_exists.mp hTag with ⟨kind, hKind⟩
    have hName := Tag.core?_eq_some_iff.mp hKind
    subst hName
    cases kind with
    | sequence =>
        rw [complaint?_sequence_eq_none_iff] at hComplaint
        exact Arg.IsCore.sequence
          fun arg hArg => hArgs arg hArg (hComplaint arg hArg)
    | static =>
        rw [complaint?_static_eq_none_iff] at hComplaint
        exact Arg.isCore_static_iff.mpr hComplaint
    | dynamic =>
        rw [complaint?_code_eq_none_iff (Or.inl rfl)]
          at hComplaint
        exact Arg.isCore_dynamic_iff.mpr hComplaint
    | block =>
        rw [complaint?_code_eq_none_iff (Or.inr rfl)]
          at hComplaint
        exact Arg.isCore_block_iff.mpr hComplaint

/- Finishing a node whose arguments passed checks the node. -/
theorem finish_eq_ok_iff
    {tag : Tag}
    {args : List Arg}
    {node : Node}
    (hTag : Tag.isCore tag = true) :
    pass.finish tag args = .ok node ↔
      complaint? ⟨tag, args⟩ = none ∧ node = ⟨tag, args⟩ := by
  unfold Pass.finish
  rw [if_pos (show pass.handles tag = true from hTag)]
  exact check_eq_ok_iff

mutual

/- Walking a node gives it back exactly if it is core. -/
theorem foldArg_eq_ok_iff :
    (arg : Arg) →
    (arg' : Arg) →
    (pass.foldArg arg = .ok arg' ↔
      arg' = arg ∧ (arg.isNode = true → arg.IsCore))
| .literal value, arg' => by
    rw [Pass.foldArg]
    constructor
    · intro h
      cases h
      refine ⟨rfl, ?_⟩
      intro hNode
      cases hNode
    · rintro ⟨rfl, -⟩
      rfl
| .node tag args, arg' => by
    rw [Pass.foldArg]
    have hNode : (Arg.node tag args).isNode = true := rfl
    simp only [hNode, true_implies, isCore_node_iff_complaint]
    by_cases hTag : Tag.isCore tag = true
    · have hRefuses : pass.refuses tag = false := by
        simp [Pass.refuses, pass, hTag]
      rw [if_neg (by simp [hRefuses]), Except.map_eq_ok_iff]
      simp only [Except.bind_eq_ok_iff,
        foldArgs_eq_ok_iff args, finish_eq_ok_iff hTag]
      constructor
      · rintro ⟨node, ⟨args', ⟨rfl, hArgs⟩, hNone, rfl⟩, rfl⟩
        exact ⟨rfl, hTag, hNone, hArgs⟩
      · rintro ⟨rfl, -, hNone, hArgs⟩
        exact ⟨⟨tag, args⟩, ⟨args, ⟨rfl, hArgs⟩, hNone, rfl⟩, rfl⟩
    · have hRefuses : pass.refuses tag = true := by
        simp [Pass.refuses, pass, hTag]
      rw [if_pos hRefuses]
      simp [hTag]

/- Walking arguments gives them back if their nodes are core. -/
theorem foldArgs_eq_ok_iff :
    (args : List Arg) →
    (args' : List Arg) →
    (pass.foldArgs args = .ok args' ↔
      args' = args ∧
        ∀ arg ∈ args, arg.isNode = true → arg.IsCore)
| [], args' => by
    rw [Pass.foldArgs, Except.ok.injEq]
    constructor
    · rintro rfl
      exact ⟨rfl, by simp⟩
    · rintro ⟨rfl, -⟩
      rfl
| arg :: args, args' => by
    rw [Pass.foldArgs]
    simp only [Except.bind_eq_ok_iff, Except.map_eq_ok_iff,
      foldArg_eq_ok_iff arg, foldArgs_eq_ok_iff args,
      List.forall_mem_cons]
    constructor
    · rintro ⟨first, ⟨rfl, hArg⟩, rest, ⟨rfl, hArgs⟩, rfl⟩
      exact ⟨rfl, hArg, hArgs⟩
    · rintro ⟨rfl, hArg, hArgs⟩
      exact ⟨arg, ⟨rfl, hArg⟩, args, ⟨rfl, hArgs⟩, rfl⟩

end

/- The check gives core trees back and refuses all others. -/
theorem run_eq_ok_iff
    {tree tree' : Node} :
    pass.run tree = .ok tree' ↔
      tree' = tree ∧ tree.toArg.IsCore := by
  have hFold := foldArg_eq_ok_iff tree.toArg tree'.toArg
  rw [Pass.foldArg_toArg, Except.map_eq_ok_iff] at hFold
  simpa [Node.toArg_inj, Arg.isNode_toArg] using hFold

end Validate

------------------------------------------------------------
-- Pieces
------------------------------------------------------------

namespace Arg

/- The pieces of an argument of some sequence, if it has any. -/
def pieces? (arg : Arg) : Option (List Piece) :=
  (Piece.ofArg "" Node.empty arg).toOption

/- The pieces of the arguments of some sequence. -/
def piecesList? (args : List Arg) : Option (List Piece) :=
  (Piece.ofArgs "" Node.empty args).toOption

end Arg

namespace Piece

mutual

/- Stage and parent of an argument are only ever blamed. -/
theorem toOption_ofArg
    (stage : String)
    (parent : Node) :
    (arg : Arg) →
    (ofArg stage parent arg).toOption = arg.pieces?
| .literal value => by
    simp [Arg.pieces?, ofArg]
| .node tag args => by
    unfold Arg.pieces?
    rw [ofArg, ofArg]
    split
    · rw [toOption_ofArgs stage ⟨tag, args⟩ args,
        toOption_ofArgs "" ⟨tag, args⟩ args]
    all_goals simp [Except.toOption_mapError]

theorem toOption_ofArgs
    (stage : String)
    (parent : Node) :
    (args : List Arg) →
    (ofArgs stage parent args).toOption = Arg.piecesList? args
| [] => by
    simp [Arg.piecesList?, ofArgs]
| arg :: args => by
    unfold Arg.piecesList?
    rw [ofArgs, ofArgs]
    simp only [Except.toOption_bind, Except.toOption_map,
      toOption_ofArg stage parent arg,
      toOption_ofArg "" Node.empty arg,
      toOption_ofArgs stage parent args,
      toOption_ofArgs "" Node.empty args]

end

end Piece

namespace Arg

open Piece

@[simp] theorem pieces?_literal
    (value : Literal) :
    pieces? (.literal value) = none := by
  simp [pieces?, ofArg]

@[simp] theorem piecesList?_nil :
    piecesList? [] = some [] := by
  simp [piecesList?, ofArgs]

/- The pieces of arguments follow each other. -/
theorem piecesList?_cons
    (arg : Arg)
    (args : List Arg) :
    piecesList? (arg :: args) =
      arg.pieces?.bind fun first =>
        (piecesList? args).map fun rest => first ++ rest := by
  simp only [piecesList?, pieces?, ofArgs, Except.toOption_bind,
    Except.toOption_map]

/- A single argument has its own pieces. -/
theorem piecesList?_singleton
    (arg : Arg) :
    piecesList? [arg] = arg.pieces? := by
  rw [piecesList?_cons]
  cases arg.pieces? with
  | none => rfl
  | some first => simp

/- A nested sequence has the pieces of its arguments. -/
theorem pieces?_sequence
    (args : List Arg) :
    pieces? (.node CoreTag.sequence.name args) =
      piecesList? args := by
  have hCore :
      Tag.core? CoreTag.sequence.name = some .sequence :=
    Tag.core?_eq_some_iff.mpr rfl
  rw [pieces?, ofArg, hCore]
  exact toOption_ofArgs "" _ args

/- A static node has a piece unless its text is empty. -/
theorem pieces?_static_eq_some_iff
    {args : List Arg}
    {pieces : List Piece} :
    pieces? (.node CoreTag.static.name args) = some pieces ↔
      ∃ text,
        args = [Arg.text text] ∧ ofStatic text = pieces := by
  have hCore :
      Tag.core? CoreTag.static.name = some .static :=
    Tag.core?_eq_some_iff.mpr rfl
  rw [pieces?, ofArg, hCore]
  simp only [Except.toOption_eq_some_iff,
    Except.mapError_eq_ok_iff, Except.map_eq_ok_iff,
    singleText_eq_ok_iff]

/- The trimmed code of a node as its only piece. -/
theorem codePiece_eq_some_iff
    (make : String → Piece)
    {node : Node}
    {pieces : List Piece} :
    ((codeText node).map fun code => [make code]).toOption =
        some pieces ↔
      ∃ text,
        node.args = [Arg.text text] ∧ Text.trim text ≠ "" ∧
          [make (Text.trim text)] = pieces := by
  simp only [Except.toOption_eq_some_iff, Except.map_eq_ok_iff,
    codeText_eq_ok_iff]
  constructor
  · rintro ⟨code, ⟨text, hArgs, rfl, hCode⟩, hPieces⟩
    exact ⟨text, hArgs, hCode, hPieces⟩
  · rintro ⟨text, hArgs, hCode, hPieces⟩
    exact ⟨_, ⟨text, hArgs, rfl, hCode⟩, hPieces⟩

theorem pieces?_dynamic_eq_some_iff
    {args : List Arg}
    {pieces : List Piece} :
    pieces? (.node CoreTag.dynamic.name args) = some pieces ↔
      ∃ text,
        args = [Arg.text text] ∧ Text.trim text ≠ "" ∧
          [.dynamic (Text.trim text)] = pieces := by
  have hCore :
      Tag.core? CoreTag.dynamic.name = some .dynamic :=
    Tag.core?_eq_some_iff.mpr rfl
  rw [pieces?, ofArg, hCore, Except.toOption_mapError]
  exact codePiece_eq_some_iff Piece.dynamic

theorem pieces?_block_eq_some_iff
    {args : List Arg}
    {pieces : List Piece} :
    pieces? (.node CoreTag.block.name args) = some pieces ↔
      ∃ text,
        args = [Arg.text text] ∧ Text.trim text ≠ "" ∧
          [.block (Text.trim text)] = pieces := by
  have hCore :
      Tag.core? CoreTag.block.name = some .block :=
    Tag.core?_eq_some_iff.mpr rfl
  rw [pieces?, ofArg, hCore, Except.toOption_mapError]
  exact codePiece_eq_some_iff Piece.block

/- A node of another tag has no pieces. -/
theorem pieces?_foreign
    {tag : Tag}
    (hTag : Tag.core? tag = none)
    (args : List Arg) :
    pieces? (.node tag args) = none := by
  simp [pieces?, ofArg, hTag]

mutual

/- The arguments with pieces are the core trees. -/
theorem exists_pieces?_iff :
    (arg : Arg) →
    ((∃ pieces, arg.pieces? = some pieces) ↔ arg.IsCore)
| .literal value => by
    simp [not_isCore_literal]
| .node tag args => by
    cases hCore : Tag.core? tag with
    | none =>
        rw [pieces?_foreign hCore]
        constructor
        · rintro ⟨pieces, h⟩
          cases h
        · intro h
          rcases h.tag with ⟨kind, hKind⟩
          rw [hCore] at hKind
          cases hKind
    | some kind =>
        have hName := Tag.core?_eq_some_iff.mp hCore
        subst hName
        cases kind with
        | sequence =>
            rw [pieces?_sequence, isCore_sequence_iff]
            exact exists_piecesList?_iff args
        | static =>
            simp only [pieces?_static_eq_some_iff,
              isCore_static_iff]
            constructor
            · rintro ⟨pieces, text, hArgs, -⟩
              exact ⟨text, hArgs⟩
            · rintro ⟨text, hArgs⟩
              exact ⟨_, text, hArgs, rfl⟩
        | dynamic =>
            simp only [pieces?_dynamic_eq_some_iff,
              isCore_dynamic_iff]
            constructor
            · rintro ⟨pieces, text, hArgs, hCode, -⟩
              exact ⟨text, hArgs, hCode⟩
            · rintro ⟨text, hArgs, hCode⟩
              exact ⟨_, text, hArgs, hCode, rfl⟩
        | block =>
            simp only [pieces?_block_eq_some_iff,
              isCore_block_iff]
            constructor
            · rintro ⟨pieces, text, hArgs, hCode, -⟩
              exact ⟨text, hArgs, hCode⟩
            · rintro ⟨text, hArgs, hCode⟩
              exact ⟨_, text, hArgs, hCode, rfl⟩

theorem exists_piecesList?_iff :
    (args : List Arg) →
    ((∃ pieces, piecesList? args = some pieces) ↔
      ∀ arg ∈ args, arg.IsCore)
| [] => by
    simp
| arg :: args => by
    rw [List.forall_mem_cons, ← exists_pieces?_iff arg,
      ← exists_piecesList?_iff args, piecesList?_cons]
    simp only [Option.bind_eq_some_iff, Option.map_eq_some_iff]
    constructor
    · rintro ⟨pieces, first, hFirst, rest, hRest, -⟩
      exact ⟨⟨first, hFirst⟩, ⟨rest, hRest⟩⟩
    · rintro ⟨⟨first, hFirst⟩, ⟨rest, hRest⟩⟩
      exact ⟨_, first, hFirst, rest, hRest, rfl⟩

end

end Arg

/- The pieces of a tree do not depend on who asks for them. -/
theorem Piece.ofNode_eq_ok_iff
    {stage : String}
    {tree : Node}
    {pieces : List Piece} :
    ofNode stage tree = .ok pieces ↔
      tree.toArg.pieces? = some pieces := by
  rw [ofNode, ← Except.toOption_eq_some_iff, toOption_ofArg]

/- A generator succeeds with the program of a tree's pieces. -/
theorem Generator.generate_eq_ok_iff
    {g : Generator}
    {tree : Node}
    {program : String} :
    g.generate tree = .ok program ↔
      ∃ pieces,
        tree.toArg.pieces? = some pieces ∧
          g.program pieces = program := by
  rw [generate_eq, Except.map_eq_ok_iff]
  simp only [Piece.ofNode_eq_ok_iff]

/- Every generator succeeds on the core trees. -/
theorem Generator.exists_generate_iff
    (g : Generator)
    (tree : Node) :
    (∃ program, g.generate tree = .ok program) ↔
      tree.toArg.IsCore := by
  rw [← Arg.exists_pieces?_iff]
  simp only [generate_eq_ok_iff]
  constructor
  · rintro ⟨program, pieces, hPieces, -⟩
    exact ⟨pieces, hPieces⟩
  · rintro ⟨pieces, hPieces⟩
    exact ⟨_, pieces, hPieces, rfl⟩

------------------------------------------------------------
-- Check And Generators
------------------------------------------------------------

/-
  The check accepts a tree exactly if a generator of either
  style, with a variable of whatever name, has a program for
  it.  A tree that it accepts comes back as it is.
-/
theorem validate_accepts_iff_generators_accept
    (tree : Node)
    (variableName : String) :
    ((∃ tree', Validate.pass.run tree = .ok tree') ↔
        ∃ program,
          (Generator.mk .buffer variableName).generate tree =
            .ok program) ∧
      ((∃ tree', Validate.pass.run tree = .ok tree') ↔
        ∃ program,
          (Generator.mk .array variableName).generate tree =
            .ok program) ∧
      ∀ tree',
        Validate.pass.run tree = .ok tree' → tree' = tree := by
  have hValidate :
      (∃ tree', Validate.pass.run tree = .ok tree') ↔
        tree.toArg.IsCore := by
    simp [Validate.run_eq_ok_iff]
  refine ⟨?_, ?_, ?_⟩
  · rw [hValidate, Generator.exists_generate_iff]
  · rw [hValidate, Generator.exists_generate_iff]
  · intro tree' hRun
    exact (Validate.run_eq_ok_iff.mp hRun).1

/- A condition that is already lowered passes the check. -/
theorem validate_accepts_lowered_condition :
    ∃ tree : Node,
      tree =
          Node.sequence
            [Node.block "if x \x7b", Node.dynamic " x ",
              Node.static "", Node.block "\x7d"] ∧
        Validate.pass.run tree = .ok tree ∧
          ∃ program,
            (Generator.mk .array "parts").generate tree =
              .ok program := by
  refine ⟨_, rfl, rfl, ?_⟩
  exact
    (validate_accepts_iff_generators_accept _ "parts").2.1.mp
      ⟨_, rfl⟩

end TemplateTree
