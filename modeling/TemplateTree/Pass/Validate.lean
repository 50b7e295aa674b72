import TemplateTree.Pass.Basic
import TemplateTree.Text.Blank

/-
  Checking that a tree is ready for a generator.

  Key definitions include:
    * `Validate.check`
    * `Validate.pass`

  A checked tree comes back unchanged: it has core tags only,
  sequences hold nodes, static nodes one text, and the others
  one text that is not blank.
-/

------------------------------------------------------------
-- Checking
------------------------------------------------------------

namespace TemplateTree

namespace Validate

/- The name of the pass. -/
def name : String :=
  "validate"

/- Whether arguments are one text that satisfies a test. -/
def isOneText
    (test : String → Bool)
    (args : List Arg) : Bool :=
  match args with
  | [arg] => arg.asText?.any test
  | _ => false

/- What is wrong with the arguments of a node, if anything is. -/
def complaint? (node : Node) : Option String :=
  match Tag.core? node.tag with
  | some .sequence =>
      if node.args.all Arg.isNode then none
      else some "sequence arguments must be nodes"
  | some .static =>
      if isOneText (fun _ => true) node.args then none
      else some "static expects one text literal"
  | _ =>
      if isOneText (fun code => Text.trim code != "") node.args then none
      else some (ticked node.tag ++ " expects one non-empty text literal")

/- Give back a node with proper arguments. -/
def check (node : Node) : Except CompileError Node :=
  match complaint? node with
  | none => .ok node
  | some message => .error (.shape name node message)

/- The pass that checks a tree. -/
def pass : Pass where
  name := name
  handles := Tag.isCore
  rejects := fun _ => true
  transform := check

end Validate

end TemplateTree
