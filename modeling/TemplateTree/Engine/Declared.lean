import TemplateTree.Engine.Catalogue
import TemplateTree.Engine.Draft
import TemplateTree.EngineFile

/-
  The engines that an engine file declares.

  Key definitions include:
    * `EngineFile.declareFilters`
    * `EngineFile.compiler`
    * `EngineFile.filterEngine`

  A compiler has all filters and the generator.  To render a
  tree only the filters are needed, so options of the whole
  engine that are meant for the generator are left out there.
-/

------------------------------------------------------------
-- Filters
------------------------------------------------------------

namespace TemplateTree

namespace EngineFile

/- Add declared filters to a draft, in order. -/
def declareFilters : List DeclaredStage → Draft Node Node →
    Except ConfigError (Draft Node Node)
| [], draft => .ok draft
| decl :: rest, draft =>
    (draft.declare Catalogue.filters decl.name decl.options).bind
      (declareFilters rest)

------------------------------------------------------------
-- Compilers
------------------------------------------------------------

/- The generator of a file, unless another one is asked for. -/
def chosenGenerator
    (file : EngineFile)
    (generator : Option String) : DeclaredStage :=
  match generator with
  | some name => .named name
  | none => file.generator

/- The declared filters and then a generator. -/
def compiler
    (file : EngineFile)
    (generator : Option String) :
    Except ConfigError (Engine Node String) :=
  let decl := file.chosenGenerator generator
  (declareFilters file.filters
      ((Draft.start file.name).withGlobals file.options)).bind
    fun draft =>
      (draft.declare Catalogue.generators decl.name decl.options).bind
        Draft.build

------------------------------------------------------------
-- Rendering
------------------------------------------------------------

/- Whether a declared filter understands an option. -/
def filtersRecognize
    (file : EngineFile)
    (name : String) : Bool :=
  file.filters.any fun decl =>
    match Catalogue.filters.specs? decl.name with
    | some specs => declares specs name
    | none => false

/-
  The declared filters alone, if there are any.  Each option
  of the whole engine has to be one that a filter or the
  generator understands.
-/
def filterEngine
    (file : EngineFile) :
    Except ConfigError (Option (Engine Node Node)) :=
  match Catalogue.generators.specs? file.generator.name with
  | none => .error (.unknownStage file.generator.name)
  | some specs =>
      match file.options.keys.find? fun name =>
          !file.filtersRecognize name && !declares specs name with
      | some option => .error (.unknownGlobalOption file.name option)
      | none =>
          let globals := file.options.filterNames file.filtersRecognize
          if file.filters.isEmpty then .ok none
          else
            (declareFilters file.filters
                ((Draft.start file.name).withGlobals globals)).bind
              fun draft => draft.build.map some

end EngineFile

end TemplateTree
