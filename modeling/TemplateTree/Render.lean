import TemplateTree.Error
import TemplateTree.Expression

/-
  Rendering a template tree directly.

  Key definitions include:
    * `Bindings`
    * `Render.Fault`
    * `Render.render`

  Static text stands for itself.  A dynamic expression is a
  literal or an identifier with a binding.  Fragments of
  program code cannot be rendered, and other tags have no
  meaning here.
-/

------------------------------------------------------------
-- Bindings
------------------------------------------------------------

namespace TemplateTree

/- The values of the identifiers in expressions. -/
abbrev Bindings := NameMap Literal

------------------------------------------------------------
-- Faults
------------------------------------------------------------

namespace Render

/- Why a node cannot be rendered. -/
inductive Fault where
| literalInSequence
| notText (tag : Tag)
| arity (tag : Tag) (count : Nat)
| unbound (name : String)
| notEvaluable (expression : String)
| fragment
| foreign
deriving DecidableEq, Repr

/- The wording of a fault. -/
def Fault.message : Fault → String
| .literalInSequence => "sequence arguments must be nodes"
| .notText tag => ticked tag ++ " expects a text literal"
| .arity tag count =>
    ticked tag ++ " expects 1 argument, found " ++ toString count
| .unbound name => ticked name ++ " is not bound"
| .notEvaluable expression =>
    ticked expression ++ " is neither a literal nor an identifier"
| .fragment =>
    "block fragments cannot be evaluated by the reference renderer"
| .foreign => "only the core vocabulary can be rendered"

/- The name under which rendering reports its errors. -/
def stage : String :=
  "render"

/- The error for a node that cannot be rendered. -/
def Fault.on
    (node : Node)
    (fault : Fault) : CompileError :=
  match fault with
  | .foreign => .shape stage node fault.message
  | _ => .generation stage (some node) fault.message

------------------------------------------------------------
-- Rendering
------------------------------------------------------------

/- The only argument of a node, which has to be a text. -/
def singleText (node : Node) : Except Fault String :=
  match node.args with
  | [arg] =>
      match arg.asText? with
      | some text => .ok text
      | none => .error (.notText node.tag)
  | args => .error (.arity node.tag args.length)

/- The value of an expression. -/
def evaluate
    (bindings : Bindings)
    (expression : String) : Except Fault Literal :=
  match Expression.literal? expression with
  | some value => .ok value
  | none =>
      if Expression.isIdentifier expression then
        let name := Text.trim expression
        match bindings.get? name with
        | some value => .ok value
        | none => .error (.unbound name)
      else .error (.notEvaluable expression)

/- The text of a dynamic node. -/
def renderDynamic
    (bindings : Bindings)
    (node : Node) : Except Fault String :=
  (singleText node).bind fun expression =>
    (evaluate bindings expression).map Literal.rendered

mutual

/- The rendered text of a tree below an argument. -/
def renderArg
    (bindings : Bindings)
    (parent : Node) :
    Arg → Except CompileError String
| .literal _ => .error (Fault.literalInSequence.on parent)
| .node tag args =>
    let node : Node := ⟨tag, args⟩
    match Tag.core? tag with
    | some .sequence => renderArgs bindings node args
    | some .static => (singleText node).mapError (Fault.on node)
    | some .dynamic =>
        (renderDynamic bindings node).mapError (Fault.on node)
    | some .block => .error (Fault.fragment.on node)
    | none => .error (Fault.foreign.on node)

/- The rendered text of the arguments of a sequence. -/
def renderArgs
    (bindings : Bindings)
    (parent : Node) :
    List Arg → Except CompileError String
| [] => .ok ""
| arg :: args =>
    match renderArg bindings parent arg with
    | .error error => .error error
    | .ok text => (renderArgs bindings parent args).map (text ++ ·)

end

/- The text that a tree stands for. -/
def render
    (bindings : Bindings)
    (node : Node) : Except CompileError String :=
  renderArg bindings node node.toArg

end Render

end TemplateTree
