import TemplateTree.Binary
import TemplateTree.Command.Action
import TemplateTree.Command.Binding
import TemplateTree.Engine.Declared
import TemplateTree.Json.Reader

/-
  The commands.

  Key definitions include:
    * `Command`
    * `Command.action`
    * `Command.run`

  A command reads files, checks what they hold, and puts out
  its result: it prints some bytes or it writes one file.
-/

------------------------------------------------------------
-- Commands
------------------------------------------------------------

namespace TemplateTree

/- What a command is asked to do, with the paths it uses. -/
inductive Command where
| compile
    (input : String)
    (engine generator output : Option String)
| render
    (input : String)
    (engine : Option String)
    (bindings : List String)
| encode (input output : String)
| decode
    (input : String)
    (output : Option String)
    (compact : Bool)
| stages
deriving DecidableEq, Repr

------------------------------------------------------------
-- Files
------------------------------------------------------------

/- The text of a file with some bytes. -/
def textOf
    (path : String)
    (bytes : List UInt8) : Except CommandError String :=
  (Utf8.decode bytes).mapError fun _ =>
    .io path "stream did not contain valid UTF-8"

/- The tree in a file, whose form its extension tells. -/
def treeOf
    (path : String)
    (bytes : List UInt8) : Except CommandError Node :=
  match TreeFormat.ofPath path with
  | .binary => (Binary.decode bytes).mapError .compile
  | .json =>
      (textOf path bytes).bind fun text =>
        (Json.load (Utf8.encode text)).mapError .compile

/- The engine that a file declares. -/
def engineFileOf
    (path : String)
    (bytes : List UInt8) : Except CommandError EngineFile :=
  (textOf path bytes).bind fun text =>
    (EngineFile.load text).mapError fun fault =>
      .engineFile path fault.message

namespace Action

/- Read the tree in a file. -/
def loadTree (path : String) : Action Node :=
  (readBytes path).bind fun bytes => ofResult (treeOf path bytes)

/- Read the engine that a file declares, or take the standard one. -/
def loadEngineFile : Option String → Action EngineFile
| none => .done .standard
| some path =>
    (readBytes path).bind fun bytes =>
      ofResult (engineFileOf path bytes)

end Action

------------------------------------------------------------
-- What Commands Do
------------------------------------------------------------

/- A configuration error as the error of a command. -/
def CommandError.ofConfig (error : ConfigError) : CommandError :=
  .compile (.configuration error)

namespace Action

universe u

/- A result of compiling, with its error as a command's error. -/
def ofCompile
    {α : Type u}
    (result : Except CompileError α) : Action α :=
  ofResult (result.mapError .compile)

/- What was made from a configuration. -/
def ofConfig
    {α : Type u}
    (result : Except ConfigError α) : Action α :=
  ofResult (result.mapError .ofConfig)

/- The bindings that were given to a command. -/
def ofBindings
    (raw : List String) : Action (List (String × Literal)) :=
  ofResult
    ((Binding.parseAll raw).mapError fun fault =>
      .invalidInput fault.message)

end Action

/- A tree after the filters of an engine, if there is one. -/
def filtered
    (engine : Option (Engine Node Node))
    (tree : Node) : Except CompileError Node :=
  match engine with
  | some engine => (engine.run tree).result
  | none => .ok tree

/- A tree as lines of JSON, or as a single line. -/
def jsonLines
    (compact : Bool)
    (tree : Node) : Except CompileError String :=
  (if compact then Json.compact tree else Json.pretty tree).map (· ++ "\n")

namespace Command

/- The steps of a command. -/
def action : Command → Action Unit
| .compile input engine generator output =>
    (Action.loadEngineFile engine).bind fun file =>
    (Action.ofConfig (file.compiler generator)).bind fun compiler =>
    (Action.loadTree input).bind fun tree =>
    (Action.ofCompile (compiler.run tree).result).bind fun program =>
    Action.put output (Utf8.encode program)
| .render input engine bindings =>
    (Action.ofBindings bindings).bind fun bindings =>
    (Action.loadEngineFile engine).bind fun file =>
    (Action.ofConfig file.filterEngine).bind fun filters =>
    (Action.loadTree input).bind fun tree =>
    (Action.ofCompile (filtered filters tree)).bind fun tree =>
    (Action.ofCompile
      (Render.render (NameMap.ofList bindings) tree)).bind fun text =>
    Action.put none (Utf8.encode text)
| .encode input output =>
    (Action.loadTree input).bind fun tree =>
    (Action.ofCompile (Binary.encode tree)).bind fun bytes =>
    Action.put (some output) bytes
| .decode input output compact =>
    (Action.loadTree input).bind fun tree =>
    (Action.ofCompile (jsonLines compact tree)).bind fun text =>
    Action.put output (Utf8.encode text)
| .stages => Action.put none (Utf8.encode Catalogue.listing)

------------------------------------------------------------
-- Running Commands
------------------------------------------------------------

/- How a command ended, what it printed and what it left. -/
structure Outcome where
  result : Except CommandError Unit
  printed : List UInt8
  directory : Directory

/- A command that failed, which leaves everything as it was. -/
def Outcome.failed
    (dir : Directory)
    (error : CommandError) : Outcome :=
  ⟨.error error, [], dir⟩

/- Run a command that was given a standard output. -/
def runWith
    (stdout : Stdout)
    (dir : Directory)
    (here : Directory.Place)
    (command : Command) : Outcome :=
  let ending := command.action.exec here ⟨dir, stdout, []⟩
  ⟨ending.1, ending.2.printed, ending.2.directory⟩

/- Run a command in a folder of a directory. -/
def run
    (dir : Directory)
    (here : Directory.Place)
    (command : Command) : Outcome :=
  command.runWith .opened dir here

end Command

end TemplateTree
