import TemplateTree.Engine.Registry
import TemplateTree.Pass.ControlFlow
import TemplateTree.Pass.Erase
import TemplateTree.Pass.Flatten
import TemplateTree.Pass.InlineDynamic
import TemplateTree.Pass.MergeStatic
import TemplateTree.Pass.Validate
import TemplateTree.Program.Generator

/-
  The filters and generators that an engine file can declare.

  Key definitions include:
    * `Catalogue.filters`
    * `Catalogue.generators`
    * `Catalogue.listing`
-/

------------------------------------------------------------
-- Filters
------------------------------------------------------------

namespace TemplateTree

namespace Catalogue

/- A pass as a stage. -/
def ofPass (pass : Pass) : Stage Node Node :=
  .leaf pass.name none pass.run

/- A pass that has no options. -/
def fixedPass (pass : Pass) : Blueprint Node Node where
  name := pass.name
  specs := []
  construct := fun _ => .ok (ofPass pass)

/- Merge adjacent static texts. -/
def mergeStatic : Blueprint Node Node :=
  fixedPass MergeStatic.pass

/- Evaluate literal expressions. -/
def inlineDynamic : Blueprint Node Node :=
  fixedPass InlineDynamic.pass

/- Check that a tree is ready for a generator. -/
def validate : Blueprint Node Node :=
  fixedPass Validate.pass

/- Splice nested sequences. -/
def flatten : Blueprint Node Node where
  name := "flatten"
  specs :=
    [{ name := "unwrap_single"
       kind := .bool
       required := false
       doc :=
        "replace single-child sequences by their child (default true)" }]
  construct := fun options =>
    .ok (ofPass (Flatten.pass (options.boolOr "unwrap_single" true)))

/- Remove the nodes of some tags. -/
def erase : Blueprint Node Node where
  name := "erase"
  specs :=
    [{ name := "erase"
       kind := .textList
       required := false
       doc := "tags to remove from the tree (default [\"comment\"])" }]
  construct := fun options =>
    .ok (ofPass (Erase.pass
      (TagSet.ofList (options.textListOr "erase" [Tag.comment]))))

/- Lower conditions and loops. -/
def controlFlow : Blueprint Node Node where
  name := "control-flow"
  specs :=
    [{ name := "pass_through"
       kind := .textList
       required := false
       doc := "higher-level tags left for a later filter" }]
  construct := fun options =>
    .ok (ofPass (ControlFlow.pass
      (TagSet.ofList (options.textListOr "pass_through" []))))

/- All filters. -/
def filters : Registry Node Node :=
  Registry.ofList
    [mergeStatic, inlineDynamic, flatten, erase, controlFlow, validate]

------------------------------------------------------------
-- Generators
------------------------------------------------------------

/- A generator as a stage. -/
def ofGenerator (g : Generator) : Stage Node String :=
  .leaf g.style.name none g.generate

/- A style of generated programs. -/
def generator (style : GeneratorStyle) : Blueprint Node String where
  name := style.name
  specs := [Generator.bufferSpec style]
  construct := fun options =>
    (Generator.ofOptions style options).map ofGenerator

/- All generators. -/
def generators : Registry Node String :=
  Registry.ofList [generator .buffer, generator .array]

------------------------------------------------------------
-- Listing
------------------------------------------------------------

/- A text filled up with spaces to a width. -/
def padded
    (width : Nat)
    (s : String) : String :=
  s ++ String.ofList (List.replicate (width - s.length) ' ')

/- The line of one option. -/
def optionLine (spec : OptionSpec) : String :=
  "      " ++ padded 14 spec.name ++ " "
    ++ padded 18 spec.kind.describe ++ " " ++ spec.doc
    ++ (if spec.required then " (required)" else "") ++ "\n"

/- The lines of one registered stage. -/
def stageLines
    {a b : Type}
    (blueprint : Blueprint a b) : String :=
  "  " ++ blueprint.name ++ "\n"
    ++ String.join (blueprint.specs.map optionLine)

/- The lines of all stages of a registry. -/
def registryLines
    {a b : Type}
    (registry : Registry a b) : String :=
  String.join
    (registry.entries.map fun entry => stageLines entry.2)

/- All filters and generators with their options. -/
def listing : String :=
  "Filters\n" ++ registryLines filters ++ "\nGenerators\n"
    ++ registryLines generators

end Catalogue

end TemplateTree
