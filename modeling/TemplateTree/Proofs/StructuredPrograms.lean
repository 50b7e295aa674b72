import Mathlib.Data.List.Forall2
import TemplateTree.Proofs.Levels
import TemplateTree.Proofs.Lowering
import TemplateTree.Proofs.TreeNodes

/-
  Programs of trees with conditions and loops.

  Main declarations:
    * `Generator.lines`
    * `Piece.Nested`
    * `Arg.Structured`
    * `ControlFlow.structured_of_run`
    * `Arg.Structured.lays`
    * `lowered_program_is_structured`

  Lowering forgets how a tree was nested, and the layout finds
  the levels again from the braces of the fragments.  The two
  are related by the pieces of a structured tree: around the
  pieces of a body stand a fragment that opens a block and one
  that closes it, so the level after them is the level before.
-/

------------------------------------------------------------
-- Structured Printing
------------------------------------------------------------

namespace TemplateTree

/- The code of an argument, without white space around it. -/
def Arg.code (arg : Arg) : String :=
  Text.trim (arg.asText?.getD "")

@[simp] theorem Arg.code_text
    (text : String) :
    (Arg.text text).code = Text.trim text := by
  simp [Arg.code]

namespace Generator

mutual

/-
  The lines of a tree that starts on a level.  Statements
  stand on the level, and the body of a condition or a loop
  stands one level to the right between its braces.
-/
def lines
    (g : Generator) :
    (level : Nat) →
    Arg →
    List (Nat × String)
| _, .literal _ => []
| level, .node tag args =>
    if tag = CoreTag.sequence.name then g.linesOf level args
    else if tag = CoreTag.static.name then
      match args with
      | [arg] =>
          let text := arg.asText?.getD ""
          if text = "" then [] else [(level, g.staticLine text)]
      | _ => []
    else if tag = CoreTag.dynamic.name then
      match args with
      | [arg] => [(level, g.dynamicLine arg.code)]
      | _ => []
    else if tag = Tag.cond then
      match args with
      | [test, body] =>
          (level, "if " ++ test.code ++ " \x7b") ::
            g.lines (level + 1) body ++
              [(level, "\x7d")]
      | [test, body, other] =>
          (level, "if " ++ test.code ++ " \x7b") ::
            g.lines (level + 1) body ++
              (level, "\x7d else \x7b") ::
                g.lines (level + 1) other ++
                  [(level, "\x7d")]
      | _ => []
    else if tag = Tag.loop then
      match args with
      | [header, body] =>
          (level, header.code ++ " \x7b") ::
            g.lines (level + 1) body ++
              [(level, "\x7d")]
      | _ => []
    else []

/- The lines of trees that follow each other. -/
def linesOf
    (g : Generator) :
    (level : Nat) →
    List Arg →
    List (Nat × String)
| _, [] => []
| level, arg :: args => g.lines level arg ++ g.linesOf level args

end

variable (g : Generator) (level : Nat)

theorem lines_sequence
    (args : List Arg) :
    g.lines level (.node CoreTag.sequence.name args) =
      g.linesOf level args := by
  unfold lines
  rw [if_pos rfl]

theorem lines_static
    (text : String) :
    g.lines level (Node.static text).toArg =
      if text = "" then [] else [(level, g.staticLine text)] := by
  simp [lines, Node.static, Node.ofText, Node.toArg,
    CoreTag.name]

theorem lines_dynamic
    (expression : String) :
    g.lines level (Node.dynamic expression).toArg =
      [(level, g.dynamicLine (Text.trim expression))] := by
  simp [lines, Node.dynamic, Node.ofText, Node.toArg,
    CoreTag.name]

theorem lines_cond
    (test : String)
    (body : Arg) :
    g.lines level (.node Tag.cond [Arg.text test, body]) =
      (level, "if " ++ Text.trim test ++ " \x7b") ::
        g.lines (level + 1) body ++
          [(level, "\x7d")] := by
  simp [lines, Tag.cond, CoreTag.name]

theorem lines_branches
    (test : String)
    (body other : Arg) :
    g.lines level (.node Tag.cond [Arg.text test, body, other]) =
      (level, "if " ++ Text.trim test ++ " \x7b") ::
        g.lines (level + 1) body ++
          (level, "\x7d else \x7b") ::
            g.lines (level + 1) other ++
              [(level, "\x7d")] := by
  simp [lines, Tag.cond, CoreTag.name]

theorem lines_loop
    (header : String)
    (body : Arg) :
    g.lines level (.node Tag.loop [Arg.text header, body]) =
      (level, Text.trim header ++ " \x7b") ::
        g.lines (level + 1) body ++
          [(level, "\x7d")] := by
  simp [lines, Tag.cond, Tag.loop, CoreTag.name]

end Generator

------------------------------------------------------------
-- Structured Trees
------------------------------------------------------------

namespace Piece

/- Pieces in which every block that is opened is closed. -/
inductive Nested : List Piece → Prop where
| nil : Nested []
| static (text : String) : Nested [.static text]
| dynamic (expression : String) : Nested [.dynamic expression]
| append
    {first rest : List Piece}
    (hFirst : Nested first)
    (hRest : Nested rest) :
    Nested (first ++ rest)
| block
    {code : String}
    {body : List Piece}
    (hCode : Layout.IsOpening code)
    (hBody : Nested body) :
    Nested (.block code :: body ++ [.block "\x7d"])
| branches
    {code : String}
    {body other : List Piece}
    (hCode : Layout.IsOpening code)
    (hBody : Nested body)
    (hOther : Nested other) :
    Nested
      (.block code :: body ++ .block "\x7d else \x7b" :: other ++
        [.block "\x7d"])

end Piece

namespace Arg

/- A tree of statements, conditions and loops, with its pieces. -/
inductive Structured : Arg → List Piece → Prop where
| nil : Structured (.node CoreTag.sequence.name []) []
| cons
    {arg : Arg}
    {args : List Arg}
    {first rest : List Piece}
    (hArg : Structured arg first)
    (hArgs : Structured (.node CoreTag.sequence.name args) rest) :
    Structured (.node CoreTag.sequence.name (arg :: args))
      (first ++ rest)
| static
    (text : String) :
    Structured (Node.static text).toArg (Piece.ofStatic text)
| dynamic
    (expression : String) :
    Structured (Node.dynamic expression).toArg
      [.dynamic (Text.trim expression)]
| cond
    (test : String)
    {body : Arg}
    {inner : List Piece}
    (hBody : Structured body inner) :
    Structured (.node Tag.cond [Arg.text test, body])
      (.block ("if " ++ Text.trim test ++ " \x7b") :: inner ++
        [.block "\x7d"])
| branches
    (test : String)
    {body other : Arg}
    {inner otherInner : List Piece}
    (hBody : Structured body inner)
    (hOther : Structured other otherInner) :
    Structured (.node Tag.cond [Arg.text test, body, other])
      (.block ("if " ++ Text.trim test ++ " \x7b") :: inner ++
        .block "\x7d else \x7b" :: otherInner ++ [.block "\x7d"])
| loop
    {header : String}
    {body : Arg}
    {inner : List Piece}
    (hHeader : Layout.IsOpening (Text.trim header ++ " \x7b"))
    (hBody : Structured body inner) :
    Structured (.node Tag.loop [Arg.text header, body])
      (.block (Text.trim header ++ " \x7b") :: inner ++
        [.block "\x7d"])

/- The pieces of a structured tree are nested as the tree is. -/
theorem Structured.nested
    {arg : Arg}
    {pieces : List Piece}
    (h : Structured arg pieces) :
    Piece.Nested pieces := by
  induction h with
  | nil => exact .nil
  | cons hArg hArgs ihArg ihArgs => exact .append ihArg ihArgs
  | static text =>
      unfold Piece.ofStatic
      split
      · exact .nil
      · exact .static text
  | dynamic expression => exact .dynamic _
  | cond test hBody ih => exact .block (Layout.isOpening_if _) ih
  | branches test hBody hOther ih ihOther =>
      exact .branches (Layout.isOpening_if _) ih ihOther
  | loop hHeader hBody ih => exact .block hHeader ih

/- A structured tree is laid out as it is printed. -/
theorem Structured.lays
    (g : Generator)
    {arg : Arg}
    {pieces : List Piece}
    (h : Structured arg pieces) :
    Layout.Lays (pieces.map g.entry)
      fun level => g.lines level arg := by
  induction h with
  | nil =>
      simp only [g.lines_sequence]
      exact Layout.lays_nil
  | cons hArg hArgs ihArg ihArgs =>
      simp only [g.lines_sequence] at ihArgs ⊢
      rw [List.map_append]
      exact ihArg.append ihArgs
  | static text =>
      simp only [g.lines_static, Piece.ofStatic]
      split
      · exact Layout.lays_nil
      · exact Layout.lays_line _
  | dynamic expression =>
      simp only [g.lines_dynamic]
      exact Layout.lays_line _
  | cond test hBody ih =>
      simp only [g.lines_cond, List.map_append, List.map_cons,
        List.map_nil]
      exact ih.block (Layout.isOpening_if _)
  | branches test hBody hOther ih ihOther =>
      simp only [g.lines_branches, List.map_append,
        List.map_cons, List.map_nil]
      exact ih.branches (Layout.isOpening_if _) ihOther
  | loop hHeader hBody ih =>
      simp only [g.lines_loop, List.map_append, List.map_cons,
        List.map_nil]
      exact ih.block hHeader

/- Nodes whose pieces stand together among given pieces. -/
def Within
    (below : List Node)
    (pieces : List Piece) : Prop :=
  ∀ node ∈ below,
    ∃ own, Structured node.toArg own ∧ own <:+: pieces

theorem within_nil
    (pieces : List Piece) :
    Within [] pieces := by
  simp [Within]

theorem within_append
    {first rest : List Node}
    {pieces : List Piece}
    (hFirst : Within first pieces)
    (hRest : Within rest pieces) :
    Within (first ++ rest) pieces := by
  intro node hNode
  rcases List.mem_append.mp hNode with hNode | hNode
  · exact hFirst node hNode
  · exact hRest node hNode

theorem Within.mono
    {below : List Node}
    {pieces pieces' : List Piece}
    (h : Within below pieces)
    (hPieces : pieces <:+: pieces') :
    Within below pieces' := by
  intro node hNode
  rcases h node hNode with ⟨own, hOwn, hInfix⟩
  exact ⟨own, hOwn, hInfix.trans hPieces⟩

/- A node of a tree is its root or stands below it. -/
theorem Structured.within_of_below
    {tag : Tag}
    {args : List Arg}
    {pieces : List Piece}
    (h : Structured (.node tag args) pieces)
    (hBelow : Within (nodesOf args) pieces) :
    Within (Arg.node tag args).nodes pieces := by
  intro node hNode
  rw [nodes, List.mem_cons] at hNode
  rcases hNode with rfl | hNode
  · exact ⟨pieces, h, List.infix_rfl⟩
  · exact hBelow node hNode

/- The pieces of a node stand together among those around it. -/
theorem Structured.within
    {arg : Arg}
    {pieces : List Piece}
    (h : Structured arg pieces) :
    Within arg.nodes pieces := by
  induction h with
  | nil =>
      exact Structured.nil.within_of_below (within_nil _)
  | cons hArg hArgs ihArg ihArgs =>
      refine (hArg.cons hArgs).within_of_below
        (within_append ?_ ?_)
      · exact ihArg.mono (List.prefix_append _ _).isInfix
      · intro node hNode
        refine ihArgs.mono (List.suffix_append _ _).isInfix
          node ?_
        rw [nodes]
        exact List.mem_cons_of_mem _ hNode
  | static text =>
      exact (Structured.static text).within_of_below
        (within_nil _)
  | dynamic expression =>
      exact (Structured.dynamic expression).within_of_below
        (within_nil _)
  | cond test hBody ih =>
      refine (hBody.cond test).within_of_below ?_
      simp only [nodesOf, nodes_text, List.nil_append,
        List.append_nil]
      exact ih.mono (List.infix_append [_] _ _)
  | branches test hBody hOther ih ihOther =>
      refine (hBody.branches test hOther).within_of_below ?_
      simp only [nodesOf, nodes_text, List.nil_append,
        List.append_nil]
      refine within_append (ih.mono ?_) (ihOther.mono ?_)
      · rw [List.append_assoc]
        exact List.infix_append [_] _ _
      · exact (List.suffix_cons _ _).isInfix.trans
          (List.infix_append _ _ _)
  | loop hHeader hBody ih =>
      refine (hBody.loop hHeader).within_of_below ?_
      simp only [nodesOf, nodes_text, List.nil_append,
        List.append_nil]
      exact ih.mono (List.infix_append [_] _ _)

end Arg

------------------------------------------------------------
-- Lowering A Node
------------------------------------------------------------

namespace Node

/- The piece of a fragment without white space around it. -/
theorem pieces?_block
    {code : String}
    (hTrim : Text.trim code = code)
    (hCode : code ≠ "") :
    (block code).toArg.pieces? = some [.block code] :=
  Arg.pieces?_block_eq_some_iff.mpr
    ⟨code, rfl, by rwa [hTrim], by rw [hTrim]⟩

theorem pieces?_sequence_nil :
    (sequence []).toArg.pieces? = some [] := by
  rw [toArg, sequence, Arg.pieces?_sequence,
    List.map_nil, Arg.piecesList?_nil]

theorem pieces?_sequence_cons
    (node : Node)
    (nodes : List Node) :
    (sequence (node :: nodes)).toArg.pieces? =
      node.toArg.pieces?.bind fun first =>
        (sequence nodes).toArg.pieces?.map
          fun rest => first ++ rest := by
  simp only [toArg, sequence, Arg.pieces?_sequence,
    List.map_cons, Arg.piecesList?_cons]

end Node

/-
  A node that is no fragment of code and, if it is a loop, has
  a header that does not start by closing a block.
-/
structure Node.Plain (node : Node) : Prop where
  tag : node.tag ≠ CoreTag.block.name
  header :
    node.tag = Tag.loop →
      ∀ text ∈ node.textArg? 0,
        Layout.closes (Text.trim text) = false

/-
  An argument whose lowered form is a text only if it is that
  text, and has pieces only if they are its own.
-/
structure Arg.LowersTo (arg arg' : Arg) : Prop where
  text (text : String) :
    arg' = Arg.text text → arg = Arg.text text
  pieces {pieces : List Piece} :
    arg'.pieces? = some pieces → arg.Structured pieces

namespace ControlFlow

theorem pieces?_opening
    {code : String}
    (hCode : Layout.IsOpening (code ++ " \x7b")) :
    (opening code).toArg.pieces? =
      some [.block (code ++ " \x7b")] := by
  refine Node.pieces?_block hCode.trimmed ?_
  intro hEmpty
  have hOpens := hCode.opens
  rw [hEmpty] at hOpens
  cases hOpens

theorem pieces?_closing :
    closing.toArg.pieces? = some [.block "\x7d"] :=
  Node.pieces?_block rfl (by decide)

theorem pieces?_otherwise :
    otherwise.toArg.pieces? = some [.block "\x7d else \x7b"] :=
  Node.pieces?_block rfl (by decide)

/- The pieces of a body and of the fragments around it. -/
theorem pieces?_lowered_eq_some_iff
    {code : String}
    {body : Node}
    {pieces : List Piece}
    (hCode : Layout.IsOpening (code ++ " \x7b")) :
    (Node.sequence [opening code, body, closing]).toArg.pieces? =
        some pieces ↔
      ∃ inner,
        body.toArg.pieces? = some inner ∧
          .block (code ++ " \x7b") :: inner ++ [.block "\x7d"] =
            pieces := by
  simp only [Node.pieces?_sequence_cons,
    Node.pieces?_sequence_nil,
    pieces?_opening hCode, pieces?_closing]
  cases body.toArg.pieces? with
  | none => simp
  | some inner => simp

theorem pieces?_branches_eq_some_iff
    {code : String}
    {body other : Node}
    {pieces : List Piece}
    (hCode : Layout.IsOpening (code ++ " \x7b")) :
    (Node.sequence
          [opening code, body, otherwise, other,
            closing]).toArg.pieces? = some pieces ↔
      ∃ inner otherInner,
        body.toArg.pieces? = some inner ∧
          other.toArg.pieces? = some otherInner ∧
            .block (code ++ " \x7b") :: inner ++
                .block "\x7d else \x7b" :: otherInner ++
                  [.block "\x7d"] = pieces := by
  simp only [Node.pieces?_sequence_cons,
    Node.pieces?_sequence_nil,
    pieces?_opening hCode, pieces?_closing, pieces?_otherwise]
  cases body.toArg.pieces? with
  | none => simp
  | some inner =>
      cases other.toArg.pieces? with
      | none => simp
      | some otherInner => simp

/- The pieces of lowered arguments are those of a sequence. -/
theorem structured_of_piecesList?
    {args args' : List Arg}
    {pieces : List Piece}
    (hArgs : List.Forall₂ Arg.LowersTo args args')
    (hPieces : Arg.piecesList? args' = some pieces) :
    Arg.Structured (.node CoreTag.sequence.name args) pieces := by
  induction hArgs generalizing pieces with
  | nil =>
      rw [Arg.piecesList?_nil] at hPieces
      cases hPieces
      exact .nil
  | cons hArg hArgs ih =>
      rw [Arg.piecesList?_cons] at hPieces
      simp only [Option.bind_eq_some_iff,
        Option.map_eq_some_iff] at hPieces
      rcases hPieces with ⟨first, hFirst, rest, hRest, rfl⟩
      exact (hArg.pieces hFirst).cons (ih hRest)

theorem args_eq_of_text
    {args : List Arg}
    {text : String}
    (hArgs : List.Forall₂ Arg.LowersTo args [Arg.text text]) :
    args = [Arg.text text] := by
  rcases hArgs with _ | ⟨hArg, ⟨⟩⟩
  rw [hArg.text text rfl]

/- Pieces of a lowered condition are those of the condition. -/
theorem structured_of_lowerIf
    {args args' : List Arg}
    {node : Node}
    {pieces : List Piece}
    (hArgs : List.Forall₂ Arg.LowersTo args args')
    (hLower : lowerIf args' = .ok node)
    (hPieces : node.toArg.pieces? = some pieces) :
    Arg.Structured (.node Tag.cond args) pieces := by
  rcases exists_of_lowerIf hLower with
    ⟨test, body, rfl, rfl⟩ | ⟨test, body, other, rfl, rfl⟩
  · rw [pieces?_lowered_eq_some_iff (Layout.isOpening_if _)]
      at hPieces
    rcases hPieces with ⟨inner, hInner, rfl⟩
    rcases hArgs with _ | ⟨hTest, _ | ⟨hBody, ⟨⟩⟩⟩
    rw [hTest.text test rfl]
    exact (hBody.pieces hInner).cond test
  · rw [pieces?_branches_eq_some_iff (Layout.isOpening_if _)]
      at hPieces
    rcases hPieces with
      ⟨inner, otherInner, hInner, hOtherInner, rfl⟩
    rcases hArgs with
      _ | ⟨hTest, _ | ⟨hBody, _ | ⟨hOther, ⟨⟩⟩⟩⟩
    rw [hTest.text test rfl]
    exact (hBody.pieces hInner).branches test
      (hOther.pieces hOtherInner)

theorem structured_of_lowerLoop
    {args args' : List Arg}
    {node : Node}
    {pieces : List Piece}
    (hPlain : Node.Plain ⟨Tag.loop, args⟩)
    (hArgs : List.Forall₂ Arg.LowersTo args args')
    (hLower : lowerLoop args' = .ok node)
    (hPieces : node.toArg.pieces? = some pieces) :
    Arg.Structured (.node Tag.loop args) pieces := by
  rcases exists_of_lowerLoop hLower with
    ⟨header, body, rfl, hBlank, rfl⟩
  rcases hArgs with _ | ⟨hHeader, _ | ⟨hBody, ⟨⟩⟩⟩
  rw [hHeader.text header rfl] at hPlain ⊢
  have hOpening :=
    Layout.isOpening_header hBlank
      (hPlain.header rfl header rfl)
  rw [pieces?_lowered_eq_some_iff hOpening] at hPieces
  rcases hPieces with ⟨inner, hInner, rfl⟩
  exact (hBody.pieces hInner).loop hOpening

/- A node keeps its pieces when it is lowered after its arguments. -/
theorem structured_of_finish
    {passThrough : TagSet}
    {tag : Tag}
    {args args' : List Arg}
    {node : Node}
    {pieces : List Piece}
    (hPlain : Node.Plain ⟨tag, args⟩)
    (hArgs : List.Forall₂ Arg.LowersTo args args')
    (hFinish :
      (pass passThrough).finish tag args' = .ok node)
    (hPieces : node.toArg.pieces? = some pieces) :
    Arg.Structured (.node tag args) pieces := by
  by_cases hCond : tag = Tag.cond
  · subst hCond
    exact structured_of_lowerIf hArgs
      (finish_cond.mp hFinish) hPieces
  by_cases hLoop : tag = Tag.loop
  · subst hLoop
    exact structured_of_lowerLoop hPlain hArgs
      (finish_loop.mp hFinish) hPieces
  rw [finish_other hCond hLoop] at hFinish
  cases hFinish
  rw [Node.toArg] at hPieces
  -- Other tags are kept, and only core tags have pieces.
  cases hCore : Tag.core? tag with
  | none =>
      rw [Arg.pieces?_foreign hCore] at hPieces
      cases hPieces
  | some kind =>
      have hName := Tag.core?_eq_some_iff.mp hCore
      subst hName
      cases kind with
      | sequence =>
          rw [Arg.pieces?_sequence] at hPieces
          exact structured_of_piecesList? hArgs hPieces
      | static =>
          rw [Arg.pieces?_static_eq_some_iff] at hPieces
          rcases hPieces with ⟨text, rfl, rfl⟩
          rw [args_eq_of_text hArgs]
          exact .static text
      | dynamic =>
          rw [Arg.pieces?_dynamic_eq_some_iff] at hPieces
          rcases hPieces with ⟨text, rfl, -, rfl⟩
          rw [args_eq_of_text hArgs]
          exact .dynamic text
      | block => exact absurd rfl hPlain.tag

------------------------------------------------------------
-- Lowering A Tree
------------------------------------------------------------

mutual

/- Lowering an argument keeps the pieces it has. -/
theorem lowersTo_of_foldArg
    {passThrough : TagSet} :
    (arg : Arg) →
    {arg' : Arg} →
    (hPlain : ∀ node ∈ arg.nodes, node.Plain) →
    (hFold : (pass passThrough).foldArg arg = .ok arg') →
    arg.LowersTo arg'
| .literal value, arg', hPlain, hFold => by
    rw [Pass.foldArg] at hFold
    cases hFold
    refine ⟨fun text hText => hText, ?_⟩
    intro pieces hPieces
    rw [Arg.pieces?_literal] at hPieces
    cases hPieces
| .node tag args, arg', hPlain, hFold => by
    rw [Arg.nodes, List.forall_mem_cons] at hPlain
    rw [Pass.foldArg] at hFold
    split at hFold
    · cases hFold
    simp only [Except.map_eq_ok_iff,
      Except.bind_eq_ok_iff] at hFold
    rcases hFold with ⟨node, ⟨args', hArgs, hFinish⟩, rfl⟩
    refine ⟨?_, ?_⟩
    · intro text hText
      cases hText
    intro pieces hPieces
    exact structured_of_finish hPlain.1
      (lowersTo_of_foldArgs args hPlain.2 hArgs) hFinish hPieces

/- Lowering arguments keeps the pieces of each of them. -/
theorem lowersTo_of_foldArgs
    {passThrough : TagSet} :
    (args : List Arg) →
    {args' : List Arg} →
    (hPlain : ∀ node ∈ Arg.nodesOf args, node.Plain) →
    (hFold : (pass passThrough).foldArgs args = .ok args') →
    List.Forall₂ Arg.LowersTo args args'
| [], args', hPlain, hFold => by
    rw [Pass.foldArgs] at hFold
    cases hFold
    exact .nil
| arg :: args, args', hPlain, hFold => by
    rw [Arg.nodesOf, List.forall_mem_append] at hPlain
    rw [Pass.foldArgs] at hFold
    simp only [Except.map_eq_ok_iff,
      Except.bind_eq_ok_iff] at hFold
    rcases hFold with ⟨first, hFirst, rest, hRest, rfl⟩
    exact .cons
      (lowersTo_of_foldArg arg hPlain.1 hFirst)
      (lowersTo_of_foldArgs args hPlain.2 hRest)

end

/- The pieces of a lowered tree are those of the tree. -/
theorem structured_of_run
    {passThrough : TagSet}
    {tree lowered : Node}
    {pieces : List Piece}
    (hPlain : ∀ node ∈ tree.toArg.nodes, node.Plain)
    (hRun : (pass passThrough).run tree = .ok lowered)
    (hPieces : lowered.toArg.pieces? = some pieces) :
    tree.toArg.Structured pieces := by
  have hFold :
      (pass passThrough).foldArg tree.toArg =
        .ok lowered.toArg := by
    rw [Pass.foldArg_toArg, hRun]
    rfl
  exact (lowersTo_of_foldArg tree.toArg hPlain hFold).pieces
    hPieces

end ControlFlow

------------------------------------------------------------
-- The Program Of A Lowered Tree
------------------------------------------------------------

/-
  A tree without fragments of code, and with no header that
  starts by closing a block, has the program in which it is
  printed from the left margin between the first line and the
  last.  Its fragments are nested.  The pieces of each node
  stand together and end on the level they start on, and so
  the program ends at the margin.
-/
theorem lowered_program_is_structured
    {g : Generator}
    {passThrough : TagSet}
    {tree lowered : Node}
    {program : String}
    (hBlocks :
      ∀ node ∈ tree.toArg.nodes,
        node.tag ≠ CoreTag.block.name)
    (hHeaders :
      ∀ node ∈ tree.toArg.nodes,
        node.tag = Tag.loop →
          ∀ header ∈ node.textArg? 0,
            Layout.closes (Text.trim header) = false)
    (hLower :
      (ControlFlow.pass passThrough).run tree = .ok lowered)
    (hProgram : g.generate lowered = .ok program) :
    program =
        String.join
          (((0, g.preamble) :: g.lines 0 tree.toArg ++
            [(0, g.postamble)]).map Layout.printLine) ∧
      ∃ pieces,
        Piece.ofNode g.style.name lowered = .ok pieces ∧
          Piece.Nested pieces ∧
          (∀ node ∈ tree.toArg.nodes,
            ∃ own,
              own <:+: pieces ∧
                ∀ level,
                  Layout.place level (own.map g.entry) =
                      g.lines level node.toArg ∧
                    Layout.endLevel level (own.map g.entry) =
                      level) ∧
          Layout.endLevel 0 (g.entries pieces) = 0 := by
  have hPlain : ∀ node ∈ tree.toArg.nodes, node.Plain := by
    intro node hNode
    exact ⟨hBlocks node hNode, hHeaders node hNode⟩
  rcases Generator.generate_eq_ok_iff.mp hProgram with
    ⟨pieces, hPieces, rfl⟩
  have hTree :=
    ControlFlow.structured_of_run hPlain hLower hPieces
  have hEntries :
      Layout.Lays (g.entries pieces) fun level =>
        (level, g.preamble) :: g.lines level tree.toArg ++
          [(level, g.postamble)] :=
    ((Layout.lays_line g.preamble).append (hTree.lays g)).append
      (Layout.lays_line g.postamble)
  refine
    ⟨?_, pieces, Piece.ofNode_eq_ok_iff.mpr hPieces,
      hTree.nested, ?_, (hEntries 0).2⟩
  · rw [Generator.program, Layout.emit, (hEntries 0).1]
  · intro node hNode
    rcases hTree.within node hNode with ⟨own, hOwn, hInfix⟩
    exact ⟨own, hInfix, hOwn.lays g⟩

namespace ItemList

def generator : Generator :=
  ⟨.buffer, "out"⟩

def tree : Node :=
  ⟨Tag.loop,
    [Arg.text " for x in xs ",
      (Node.sequence
        [Node.static "- ",
          ⟨Tag.cond,
            [Arg.text "x.done", (Node.dynamic " x ").toArg,
              (Node.static "").toArg]⟩]).toArg]⟩

/- A loop over a text and a condition with an empty branch. -/
theorem item_list_program_is_structured :
    ∃ lowered program pieces,
      (∀ node ∈ tree.toArg.nodes,
          node.tag ≠ CoreTag.block.name) ∧
        (∀ node ∈ tree.toArg.nodes,
          node.tag = Tag.loop →
            ∀ header ∈ node.textArg? 0,
              Layout.closes (Text.trim header) = false) ∧
        (ControlFlow.pass NameMap.empty).run tree =
          .ok lowered ∧
        generator.generate lowered = .ok program ∧
        program =
          String.join
            ([(0, "let mut out = String::new();"),
                (0, "for x in xs \x7b"),
                (1, "out.push_str(\"- \");"),
                (1, "if x.done \x7b"),
                (2, "out.push_str(&(x).to_string());"),
                (1, "\x7d else \x7b"),
                (1, "\x7d"),
                (0, "\x7d"),
                (0, "out")].map Layout.printLine) ∧
        Piece.ofNode "buffer" lowered = .ok pieces ∧
        Piece.Nested pieces ∧
        Layout.endLevel 0 (generator.entries pieces) = 0 := by
  have hBlocks :
      ∀ node ∈ tree.toArg.nodes,
        node.tag ≠ CoreTag.block.name := by
    decide
  have hHeaders :
      ∀ node ∈ tree.toArg.nodes,
        node.tag = Tag.loop →
          ∀ header ∈ node.textArg? 0,
            Layout.closes (Text.trim header) = false := by
    decide
  have hLower :
      ∃ lowered,
        (ControlFlow.pass NameMap.empty).run tree =
          .ok lowered :=
    ⟨_, rfl⟩
  have hGenerate :
      ∀ lowered,
        (ControlFlow.pass NameMap.empty).run tree =
            .ok lowered →
          ∃ program,
            generator.generate lowered = .ok program := by
    rintro lowered ⟨⟩
    exact ⟨_, rfl⟩
  rcases hLower with ⟨lowered, hLower⟩
  rcases hGenerate lowered hLower with ⟨program, hProgram⟩
  rcases lowered_program_is_structured hBlocks hHeaders hLower
    hProgram with ⟨hText, pieces, hPieces, hNested, -, hEnd⟩
  exact
    ⟨lowered, program, pieces, hBlocks, hHeaders, hLower,
      hProgram, hText.trans (by congr 2), hPieces, hNested, hEnd⟩

end ItemList

end TemplateTree
