import TemplateTree.Pass.Basic
import TemplateTree.Text.Blank

/-
  Lowering conditions and loops to fragments of code.

  Key definitions include:
    * `ControlFlow.Fault`
    * `ControlFlow.lowerIf`
    * `ControlFlow.lowerLoop`
    * `ControlFlow.pass`

  A condition with its branches, or a header with its body,
  becomes a sequence in which fragments of code stand around
  the bodies.  Tags that are neither core nor passed through
  are refused, so that nothing else reaches a generator.
-/

------------------------------------------------------------
-- Faults
------------------------------------------------------------

namespace TemplateTree

namespace ControlFlow

/- The name of the pass. -/
def name : String :=
  "control-flow"

/- Why a condition or a loop cannot be lowered. -/
inductive Fault where
| ifArity (count : Nat)
| loopArity (count : Nat)
| noCode (found : Arg)
| noBranch (found : Arg)
deriving DecidableEq, Repr

/- The wording of a fault. -/
def Fault.message : Fault → String
| .ifArity count =>
    "expects a condition, a branch and an optional else branch, found "
      ++ toString count ++ " arguments"
| .loopArity count =>
    "expects a header and a body, found " ++ toString count
      ++ " arguments"
| .noCode found =>
    "the first argument must be non-empty code, found "
      ++ found.display
| .noBranch found =>
    "branches must be nodes, found " ++ found.display

------------------------------------------------------------
-- Lowering
------------------------------------------------------------

/- The code of a condition or a header. -/
def condition (arg : Arg) : Except Fault String :=
  let code := (arg.asText?.map Text.trim).getD ""
  if code = "" then .error (.noCode arg) else .ok code

/- A branch or a body. -/
def branch (arg : Arg) : Except Fault Node :=
  match arg.asNode? with
  | some node => .ok node
  | none => .error (.noBranch arg)

/- The fragment that opens a block. -/
def opening (code : String) : Node :=
  Node.block (code ++ " \x7b")

/- The fragment between two branches. -/
def otherwise : Node :=
  Node.block "\x7d else \x7b"

/- The fragment that closes a block. -/
def closing : Node :=
  Node.block "\x7d"

/- A condition with one branch or two. -/
def lowerIf (args : List Arg) : Except Fault Node :=
  match args with
  | [test, body] =>
      (condition test).bind fun code =>
        (branch body).map fun body =>
          Node.sequence [opening ("if " ++ code), body, closing]
  | [test, body, other] =>
      (condition test).bind fun code =>
        (branch body).bind fun body =>
          (branch other).map fun other =>
            Node.sequence
              [opening ("if " ++ code), body, otherwise, other, closing]
  | _ => .error (.ifArity args.length)

/- A loop with its header and its body. -/
def lowerLoop (args : List Arg) : Except Fault Node :=
  match args with
  | [header, body] =>
      (condition header).bind fun code =>
        (branch body).map fun body =>
          Node.sequence [opening code, body, closing]
  | _ => .error (.loopArity args.length)

/- Lower a node whose arguments are already lowered. -/
def lower (node : Node) : Except CompileError Node :=
  let lowered :=
    if node.tag = Tag.cond then lowerIf node.args
    else if node.tag = Tag.loop then lowerLoop node.args
    else .ok node
  lowered.mapError fun fault => .shape name node fault.message

/- The pass that lowers control flow. -/
def pass (passThrough : TagSet) : Pass where
  name := name
  handles := fun tag => tag == Tag.cond || tag == Tag.loop
  rejects := fun tag =>
    !(Tag.isCore tag || passThrough.contains tag)
  transform := lower

end ControlFlow

end TemplateTree
