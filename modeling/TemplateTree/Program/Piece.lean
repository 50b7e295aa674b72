import TemplateTree.Error
import TemplateTree.Text.Blank

/-
  What the nodes of a template tree contribute to a program.

  Key definitions include:
    * `Piece`
    * `Piece.Fault`
    * `Piece.singleText`
    * `Piece.codeText`

  A node contributes a static text, an expression or a
  fragment of code, the last two without white space around
  them.
-/

------------------------------------------------------------
-- Pieces
------------------------------------------------------------

namespace TemplateTree

/- One piece of a program's output, or of its code. -/
inductive Piece where
| static (text : String)
| dynamic (expression : String)
| block (code : String)
deriving DecidableEq, Repr

namespace Piece

/- Why no program can be generated from a node. -/
inductive Fault where
| literalInSequence (kind : String)
| notText (tag : Tag) (found : Arg)
| arity (tag : Tag) (count : Nat)
| blank (tag : Tag)
| foreign
deriving DecidableEq, Repr

/- The wording of a fault. -/
def Fault.message : Fault → String
| .literalInSequence kind =>
    "sequence arguments must be nodes, found " ++ kind ++ " literal"
| .notText tag found =>
    ticked tag ++ " expects a text literal, found " ++ found.display
| .arity tag count =>
    ticked tag ++ " expects 1 argument, found " ++ toString count
| .blank tag => ticked tag ++ " needs non-empty code"
| .foreign =>
    "generators accept only sequence, static, dynamic and block"

/- The error of a stage for a node without a program. -/
def Fault.on
    (stage : String)
    (node : Node)
    (fault : Fault) : CompileError :=
  match fault with
  | .foreign => .shape stage node fault.message
  | _ => .generation stage (some node) fault.message

------------------------------------------------------------
-- Texts Of Nodes
------------------------------------------------------------

/- The only argument of a node, which has to be a text. -/
def singleText (node : Node) : Except Fault String :=
  match node.args with
  | [arg] =>
      match arg.asText? with
      | some text => .ok text
      | none => .error (.notText node.tag arg)
  | args => .error (.arity node.tag args.length)

/- The only argument of a node as code, which is not blank. -/
def codeText (node : Node) : Except Fault String :=
  (singleText node).bind fun text =>
    let code := Text.trim text
    if code = "" then .error (.blank node.tag) else .ok code

end Piece

end TemplateTree
