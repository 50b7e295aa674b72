import TemplateTree.Pass.Basic

/-
  Merging adjacent static texts.

  Key definitions include:
    * `MergeStatic.staticText?`
    * `MergeStatic.mergeFrom`
    * `MergeStatic.pass`

  In a sequence, a run of adjacent static nodes becomes one
  static node with their texts in order.  All else keeps its
  place.
-/

------------------------------------------------------------
-- Merging
------------------------------------------------------------

namespace TemplateTree

namespace MergeStatic

/- The text of a static node that has just one text. -/
def staticText? : Arg → Option String
| .node tag [arg] =>
    if tag = CoreTag.static.name then arg.asText? else none
| _ => none

/- The node of a run of static texts, if there is a run. -/
def runArgs : Option String → List Arg
| none => []
| some text => [(Node.static text).toArg]

/- Merge arguments that follow a run of static texts. -/
def mergeFrom : (before : Option String) → List Arg → List Arg
| before, [] => runArgs before
| before, arg :: args =>
    match staticText? arg with
    | some text => mergeFrom (some (before.getD "" ++ text)) args
    | none => runArgs before ++ arg :: mergeFrom none args

/- Merge the static texts among arguments. -/
def merge (args : List Arg) : List Arg :=
  mergeFrom none args

/- The pass that merges static texts in sequences. -/
def pass : Pass where
  name := "merge-static"
  handles := fun tag => tag == CoreTag.sequence.name
  rejects := fun _ => false
  transform := fun node => .ok (node.withArgs (merge node.args))

end MergeStatic

end TemplateTree
