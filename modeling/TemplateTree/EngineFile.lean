import TemplateTree.Json.Fault
import TemplateTree.Options
import TemplateTree.Toml.Reader
import TemplateTree.Toml.Writer

/-
  Engine files: which filters run, in which order, and which
  generator ends the engine.

  Key definitions include:
    * `DeclaredStage`
    * `EngineFile`
    * `EngineFile.toTable`
    * `EngineFile.ofTable`
    * `EngineFile.save`
    * `EngineFile.load`

  A file may leave out what has a default.  It declares no
  filter unless it says so, while the engine that is used
  without a file has three.
-/

------------------------------------------------------------
-- Declarations
------------------------------------------------------------

namespace TemplateTree

/- A stage of an engine, by its name and its options. -/
structure DeclaredStage where
  name : String
  options : Options
deriving DecidableEq, Repr

/- A stage without options. -/
def DeclaredStage.named (name : String) : DeclaredStage :=
  ⟨name, NameMap.empty⟩

/- The declaration of an engine. -/
structure EngineFile where
  name : String
  options : Options
  filters : List DeclaredStage
  generator : DeclaredStage
deriving DecidableEq, Repr

namespace EngineFile

/- What a file declares that says nothing. -/
def bare : EngineFile where
  name := "wf"
  options := NameMap.empty
  filters := []
  generator := .named "buffer"

/- The engine that is used without a file. -/
def standard : EngineFile :=
  { bare with
    filters :=
      ["control-flow", "inline-dynamic", "merge-static"].map
        DeclaredStage.named }

end EngineFile

/- Equality of stages, with floats compared as numbers. -/
def DeclaredStage.same (a b : DeclaredStage) : Bool :=
  a.name == b.name && Options.same a.options b.options

/- Equality of engine files, with floats compared as numbers. -/
def EngineFile.same (a b : EngineFile) : Bool :=
  a.name == b.name && Options.same a.options b.options
    && a.filters.length == b.filters.length
    && (a.filters.zip b.filters).all (fun (x, y) => x.same y)
    && a.generator.same b.generator

------------------------------------------------------------
-- Tables Of Declarations
------------------------------------------------------------

mutual

/- An option as a value of a document. -/
def OptionValue.toToml : OptionValue → Toml.Value
| .bool value => .boolean value
| .int value => .integer value
| .float value => .float value
| .text value => .string value
| .list items => .array (OptionValue.listToToml items)

/- The items of a list option. -/
def OptionValue.listToToml : List OptionValue → List Toml.Value
| [] => []
| item :: rest => item.toToml :: OptionValue.listToToml rest

end

/- Options as a table. -/
def Options.toTable (options : Options) : Toml.Table :=
  options.entries.map fun (name, value) => (name, value.toToml)

/- A stage as a table. -/
def DeclaredStage.toTable (decl : DeclaredStage) : Toml.Table :=
  [("name", .string decl.name),
    ("options", .table (Options.toTable decl.options))]

/- An engine as a document. -/
def EngineFile.toTable (file : EngineFile) : Toml.Table :=
  [("name", .string file.name),
    ("options", .table (Options.toTable file.options)),
    ("filters",
      .array (file.filters.map fun decl => .table decl.toTable)),
    ("generator", .table file.generator.toTable)]

------------------------------------------------------------
-- Faults
------------------------------------------------------------

namespace EngineFile

/- What a file has to hold at a place. -/
inductive Expected where
| name
| options
| filters
| stage
deriving DecidableEq, Repr

/- An expectation in words. -/
def Expected.describe : Expected → String
| .name => "a string"
| .options => "a map"
| .filters => "a sequence"
| .stage => "struct StageDecl"

/- Why a document declares no engine. -/
inductive Fault where
| notToml
| unknownField (name : String)
| missingName
| emptyStage
| wrongOption
| invalidType (found : Json.Found) (expected : Expected)
deriving DecidableEq, Repr

/- The wording of a fault. -/
def Fault.message : Fault → String
| .notToml => "not a TOML document"
| .unknownField name =>
    "unknown field " ++ ticked name
      ++ ", expected one of `name`, `options`, `filters`, `generator`"
| .missingName => "missing field `name`"
| .emptyStage => "invalid length 0, expected struct StageDecl with 2 elements"
| .wrongOption =>
    "data did not match any variant of untagged enum OptionValue"
| .invalidType found expected =>
    "invalid type: " ++ found.describe .bare ++ ", expected "
      ++ expected.describe

/- A value of a document in an error; a moment is a map there. -/
def found : Toml.Value → Json.Found
| .string value => .string value
| .integer value => .integer value.toInt
| .float value => .float value
| .boolean value => .bool value
| .moment _ => .map
| .array _ => .sequence
| .table _ => .map

/- The name under which a moment holds its text. -/
def momentField : String :=
  "$__toml_private_datetime"

/- The entries of a table, or the only entry of a moment. -/
def entries? : Toml.Value → Option Toml.Table
| .table entries => some entries
| .moment value => some [(momentField, .string value.text)]
| _ => none

------------------------------------------------------------
-- Reading Declarations
------------------------------------------------------------

/- The text of a name. -/
def readName : Toml.Value → Except Fault String
| .string value => .ok value
| value => .error (.invalidType (found value) .name)

mutual

/- The option that a value stands for. -/
def readOption : Toml.Value → Except Fault OptionValue
| .string value => .ok (.text value)
| .integer value => .ok (.int value)
| .float value => .ok (.float value)
| .boolean value => .ok (.bool value)
| .moment _ => .error .wrongOption
| .array items => (readOptionList items).map .list
| .table _ => .error .wrongOption

/- The options that the items of an array stand for. -/
def readOptionList : List Toml.Value → Except Fault (List OptionValue)
| [] => .ok []
| item :: rest =>
    (readOption item).bind fun value =>
      (readOptionList rest).map (value :: ·)

end

/- Add the options of a table to some others. -/
def readEntries : Toml.Table → Options → Except Fault Options
| [], options => .ok options
| (name, value) :: rest, options =>
    (readOption value).bind fun value =>
      readEntries rest (options.insert name value)

/- The options that a value holds. -/
def readOptions (value : Toml.Value) : Except Fault Options :=
  match entries? value with
  | some entries => readEntries entries NameMap.empty
  | none => .error (.invalidType (found value) .options)

/- The fields of a stage; unknown ones do not count. -/
def readStageFields : Toml.Table → Option String → Options →
    Except Fault DeclaredStage
| [], some name, options => .ok ⟨name, options⟩
| [], none, _ => .error .missingName
| (field, value) :: rest, name, options =>
    if field = "name" then
      (readName value).bind fun name =>
        readStageFields rest (some name) options
    else if field = "options" then
      (readOptions value).bind fun options =>
        readStageFields rest name options
    else readStageFields rest name options

/-
  The stage that a value declares: by the fields of a table,
  or by a name and options in the first places of an array.
-/
def readStage (value : Toml.Value) : Except Fault DeclaredStage :=
  match value with
  | .array [] => .error .emptyStage
  | .array [name] => (readName name).map DeclaredStage.named
  | .array (name :: options :: _) =>
      (readName name).bind fun name =>
        (readOptions options).map fun options => ⟨name, options⟩
  | _ =>
      match entries? value with
      | some entries => readStageFields entries none NameMap.empty
      | none => .error (.invalidType (found value) .stage)

/- The stages that some values declare. -/
def readStages : List Toml.Value → Except Fault (List DeclaredStage)
| [] => .ok []
| value :: rest =>
    (readStage value).bind fun decl =>
      (readStages rest).map (decl :: ·)

/- The filters that a value declares. -/
def readFilters : Toml.Value → Except Fault (List DeclaredStage)
| .array items => readStages items
| value => .error (.invalidType (found value) .filters)

/- Add the fields of a document to what is already declared. -/
def readFields : Toml.Table → EngineFile → Except Fault EngineFile
| [], file => .ok file
| (field, value) :: rest, file =>
    if field = "name" then
      (readName value).bind fun name =>
        readFields rest { file with name := name }
    else if field = "options" then
      (readOptions value).bind fun options =>
        readFields rest { file with options := options }
    else if field = "filters" then
      (readFilters value).bind fun filters =>
        readFields rest { file with filters := filters }
    else if field = "generator" then
      (readStage value).bind fun generator =>
        readFields rest { file with generator := generator }
    else .error (.unknownField field)

/- The engine that a document declares. -/
def ofTable (table : Toml.Table) : Except Fault EngineFile :=
  readFields table bare

------------------------------------------------------------
-- Files
------------------------------------------------------------

/- The text of an engine file. -/
def save (file : EngineFile) : String :=
  Toml.write file.toTable

/- The engine that the text of a file declares. -/
def load (text : String) : Except Fault EngineFile :=
  match Toml.read text with
  | some table => ofTable table
  | none => .error .notToml

end EngineFile

end TemplateTree
