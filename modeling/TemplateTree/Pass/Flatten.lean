import TemplateTree.Pass.Basic

/-
  Splicing nested sequences into their parent.

  Key definitions include:
    * `Flatten.splice`
    * `Flatten.flatten`
    * `Flatten.pass`

  Arguments are flattened before their node, so splicing one
  level is enough.  A sequence of exactly one node may be
  replaced by that node.
-/

------------------------------------------------------------
-- Flattening
------------------------------------------------------------

namespace TemplateTree

namespace Flatten

/- The arguments of a nested sequence, or the argument itself. -/
def splice : Arg → List Arg
| .literal value => [.literal value]
| .node tag args =>
    if tag = CoreTag.sequence.name then args else [.node tag args]

/- Splice nested sequences, and unwrap a single node if asked. -/
def flatten
    (unwrapSingle : Bool)
    (node : Node) : Node :=
  let args := node.args.flatMap splice
  match args with
  | [.node tag inner] =>
      if unwrapSingle then ⟨tag, inner⟩ else node.withArgs args
  | _ => node.withArgs args

/- The pass that flattens sequences. -/
def pass (unwrapSingle : Bool) : Pass where
  name := "flatten"
  handles := fun tag => tag == CoreTag.sequence.name
  rejects := fun _ => false
  transform := fun node => .ok (flatten unwrapSingle node)

end Flatten

end TemplateTree
