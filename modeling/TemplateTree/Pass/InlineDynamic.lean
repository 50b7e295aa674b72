import TemplateTree.Expression
import TemplateTree.Pass.Basic

/-
  Evaluating literal expressions ahead of time.

  Key definitions include:
    * `InlineDynamic.value?`
    * `InlineDynamic.pass`

  A dynamic node whose expression is a literal becomes the
  static text that evaluating it would give.
-/

------------------------------------------------------------
-- Inlining
------------------------------------------------------------

namespace TemplateTree

namespace InlineDynamic

/- The value of a node's only argument, if it is a literal. -/
def value? (node : Node) : Option Literal :=
  match node.args with
  | [arg] => arg.asText?.bind Expression.literal?
  | _ => none

/- The static text of a literal expression. -/
def inline (node : Node) : Node :=
  match value? node with
  | some value => Node.static value.rendered
  | none => node

/- The pass that evaluates literal expressions. -/
def pass : Pass where
  name := "inline-dynamic"
  handles := fun tag => tag == CoreTag.dynamic.name
  rejects := fun _ => false
  transform := fun node => .ok (inline node)

end InlineDynamic

end TemplateTree
