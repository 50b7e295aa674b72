import TemplateTree.Program.Generator
import TemplateTree.Proofs.Except
import TemplateTree.Proofs.Levels

/-
  Programs as the pieces that are put out for them.

  Main declarations:
    * `Piece.ofNode`
    * `Generator.program`
    * `Generator.walkArg_eq`
    * `Generator.generate_eq`

  The pieces of a tree are its static texts that are not
  empty, its expressions and its fragments of code, in tree
  order and without white space around code.  The walk over a
  tree hands its emitter from node to node.  It fails as the
  collecting of pieces fails, and otherwise it puts out the
  pieces, one after another.
-/

------------------------------------------------------------
-- Pieces Of Trees
------------------------------------------------------------

namespace TemplateTree

namespace Piece

/- The piece of a static text; an empty one has none. -/
def ofStatic (text : String) : List Piece :=
  if text = "" then [] else [.static text]

mutual

/- The pieces of a tree below an argument. -/
def ofArg
    (stage : String)
    (parent : Node) :
    Arg → Except CompileError (List Piece)
| .literal value =>
    .error ((Fault.literalInSequence value.kind).on stage parent)
| .node tag args =>
    let node : Node := ⟨tag, args⟩
    match Tag.core? tag with
    | some .sequence => ofArgs stage node args
    | some .static =>
        ((singleText node).map ofStatic).mapError
          (Fault.on stage node)
    | some .dynamic =>
        ((codeText node).map fun code => [.dynamic code]).mapError
          (Fault.on stage node)
    | some .block =>
        ((codeText node).map fun code => [.block code]).mapError
          (Fault.on stage node)
    | none => .error (Fault.foreign.on stage node)

/- The pieces of the arguments of a sequence. -/
def ofArgs
    (stage : String)
    (parent : Node) :
    List Arg → Except CompileError (List Piece)
| [] => .ok []
| arg :: args =>
    (ofArg stage parent arg).bind fun first =>
      (ofArgs stage parent args).map fun rest => first ++ rest

end

/- The pieces of a tree, for a stage that generates programs. -/
def ofNode
    (stage : String)
    (node : Node) : Except CompileError (List Piece) :=
  ofArg stage node node.toArg

end Piece

------------------------------------------------------------
-- Programs Of Pieces
------------------------------------------------------------

namespace Generator

/- The entry of a piece. -/
def entry (g : Generator) : Piece → Entry
| .static text => .line (g.staticLine text)
| .dynamic expression => .line (g.dynamicLine expression)
| .block code => .code code

/- The entries of a program. -/
def entries
    (g : Generator)
    (pieces : List Piece) : List Entry :=
  .line g.preamble :: pieces.map g.entry ++ [.line g.postamble]

/- The text of a program made of pieces. -/
def program
    (g : Generator)
    (pieces : List Piece) : String :=
  Layout.emit (g.entries pieces)

/- A piece is put out as its entry. -/
theorem write_eq_push
    (g : Generator)
    (out : Emitter)
    (piece : Piece) :
    g.write out piece = out.push (g.entry piece) := by
  cases piece with
  | static text => rfl
  | dynamic expression => rfl
  | block code => rfl

theorem writeStatic_eq
    (g : Generator)
    (out : Emitter)
    (text : String) :
    g.writeStatic out text =
      (Piece.ofStatic text).foldl g.write out := by
  unfold writeStatic Piece.ofStatic
  split
  · rfl
  · rfl

/- Between its first and last line a program has its pieces. -/
theorem code_foldl_write
    (g : Generator)
    (pieces : List Piece) :
    ((pieces.foldl g.write
      (Emitter.empty.pushLine g.preamble)).pushLine
        g.postamble).code = g.program pieces := by
  have hPieces (out : Emitter) :
      pieces.foldl g.write out =
        (pieces.map g.entry).foldl Emitter.push out := by
    rw [List.foldl_map]
    congr 1
    funext out piece
    exact g.write_eq_push out piece
  rw [program, entries, ← Emitter.code_foldl_push,
    List.foldl_append, List.foldl_cons, hPieces]
  rfl

------------------------------------------------------------
-- Walking
------------------------------------------------------------

mutual

/-
  The walk below an argument starts with any emitter, and puts
  out the pieces of the argument after what is there.
-/
theorem walkArg_eq
    (g : Generator)
    (parent : Node)
    (arg : Arg)
    (out : Emitter) :
    g.walkArg parent arg out =
      (Piece.ofArg g.style.name parent arg).map fun pieces =>
        pieces.foldl g.write out := by
  cases arg with
  | literal value => rfl
  | node tag args =>
      rw [walkArg, Piece.ofArg]
      cases Tag.core? tag with
      | none => rfl
      | some core =>
          cases core with
          | sequence => exact walkArgs_eq g ⟨tag, args⟩ args out
          | static =>
              simp only [← Except.mapError_map, Except.map_map,
                ← writeStatic_eq]
          | dynamic =>
              simp only [← Except.mapError_map, Except.map_map]
              rfl
          | block =>
              simp only [← Except.mapError_map, Except.map_map]
              rfl

/- So does the walk along the arguments of a sequence. -/
theorem walkArgs_eq
    (g : Generator)
    (parent : Node)
    (args : List Arg)
    (out : Emitter) :
    g.walkArgs parent args out =
      (Piece.ofArgs g.style.name parent args).map fun pieces =>
        pieces.foldl g.write out := by
  cases args with
  | nil => rfl
  | cons arg args =>
      rw [walkArgs, Piece.ofArgs, walkArg_eq g parent arg out]
      -- What the first argument left is where the others start.
      cases Piece.ofArg g.style.name parent arg with
      | error error => rfl
      | ok first =>
          rw [Except.map_ok, Except.bind_ok, Except.bind_ok,
            walkArgs_eq g parent args, Except.map_map]
          simp only [List.foldl_append]

end

/- A program is made of the pieces of its tree. -/
theorem generate_eq
    (g : Generator)
    (node : Node) :
    g.generate node =
      (Piece.ofNode g.style.name node).map g.program := by
  rw [generate, walkArg_eq, Except.map_map, Piece.ofNode]
  simp only [code_foldl_write]

end Generator

end TemplateTree
