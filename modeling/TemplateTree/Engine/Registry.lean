import TemplateTree.Engine.Stage
import TemplateTree.Options

/-
  Stages that can be declared by name.

  Key definitions include:
    * `Blueprint`
    * `Blueprint.configure`
    * `Registry`
    * `Registry.build`

  A blueprint holds the options that a kind of stage
  understands and makes a stage from resolved options.
-/

------------------------------------------------------------
-- Blueprints
------------------------------------------------------------

namespace TemplateTree

/- A kind of stage that is made from options. -/
structure Blueprint (a b : Type) where
  name : String
  specs : List OptionSpec
  construct : ResolvedOptions → Except ConfigError (Stage a b)

/- Make a stage from the options of an engine and its own. -/
def Blueprint.configure
    {a b : Type}
    (blueprint : Blueprint a b)
    (globals locals : Options) :
    Except ConfigError (Stage a b) :=
  (ResolvedOptions.bind blueprint.name blueprint.specs globals
    locals).bind blueprint.construct

------------------------------------------------------------
-- Registries
------------------------------------------------------------

/- Blueprints by name. -/
abbrev Registry (a b : Type) := NameMap (Blueprint a b)

namespace Registry

variable {a b : Type}

/- The registry of a list of blueprints. -/
def ofList (blueprints : List (Blueprint a b)) : Registry a b :=
  NameMap.ofList
    (blueprints.map fun blueprint => (blueprint.name, blueprint))

/- The options that a registered stage understands. -/
def specs?
    (registry : Registry a b)
    (name : String) : Option (List OptionSpec) :=
  (registry.get? name).map Blueprint.specs

/- Make the stage that is registered under a name. -/
def build
    (registry : Registry a b)
    (name : String)
    (globals locals : Options) :
    Except ConfigError (Stage a b) :=
  match registry.get? name with
  | some blueprint => blueprint.configure globals locals
  | none => .error (.unknownStage name)

end Registry

end TemplateTree
