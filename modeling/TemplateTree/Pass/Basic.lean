import TemplateTree.Error

/-
  Changing a template tree node by node.

  Key definitions include:
    * `Pass`
    * `Pass.foldArg`
    * `Pass.run`

  A pass says which tags it handles and how it changes one
  node.  Running it walks the tree: the arguments of a node
  are changed before the node itself.  A tag that is not
  handled is kept or refused, as the pass decides.
-/

------------------------------------------------------------
-- Passes
------------------------------------------------------------

namespace TemplateTree

/- A change of single nodes. -/
structure Pass where
  name : String
  handles : Tag → Bool
  rejects : Tag → Bool
  transform : Node → Except CompileError Node

namespace Pass

/- The error for a node of a tag that a pass refuses. -/
def rejection
    (pass : Pass)
    (node : Node) : CompileError :=
  .shape pass.name node "tag is neither handled nor passed through"

/- Whether a pass refuses a tag. -/
def refuses
    (pass : Pass)
    (tag : Tag) : Bool :=
  !pass.handles tag && pass.rejects tag

/- Change a node whose arguments are already changed. -/
def finish
    (pass : Pass)
    (tag : Tag)
    (args : List Arg) : Except CompileError Node :=
  if pass.handles tag then pass.transform ⟨tag, args⟩
  else .ok ⟨tag, args⟩

mutual

/- Change an argument and all below it. -/
def foldArg (pass : Pass) : Arg → Except CompileError Arg
| .literal value => .ok (.literal value)
| .node tag args =>
    if pass.refuses tag then .error (pass.rejection ⟨tag, args⟩)
    else
      ((foldArgs pass args).bind (pass.finish tag)).map Node.toArg

/- Change arguments from left to right. -/
def foldArgs (pass : Pass) : List Arg → Except CompileError (List Arg)
| [] => .ok []
| arg :: args =>
    (foldArg pass arg).bind fun first =>
      (foldArgs pass args).map fun rest => first :: rest

end

/- Change a tree. -/
def run
    (pass : Pass)
    (node : Node) : Except CompileError Node :=
  if pass.refuses node.tag then .error (pass.rejection node)
  else (foldArgs pass node.args).bind (pass.finish node.tag)

/- A tree in argument position is changed as a tree. -/
theorem foldArg_toArg
    (pass : Pass)
    (node : Node) :
    pass.foldArg node.toArg = (pass.run node).map Node.toArg := by
  unfold Node.toArg run
  rw [foldArg]
  split <;> rfl

end Pass

end TemplateTree
