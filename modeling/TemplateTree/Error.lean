import TemplateTree.Tree

/-
  Why an engine cannot be built, a tree cannot be processed,
  or a command cannot be carried out.

  Key definitions include:
    * `ConfigError`
    * `CompileError`
    * `CompileError.rootCause`
    * `CompileError.failingStage?`
    * `CompileError.positionPath`
    * `CommandError`

  Each error has a message, a code that identifies its kind,
  and sometimes advice.  An error inside nested engines is
  wrapped once for each engine, with the position and the
  name of the stage that failed there.
-/

------------------------------------------------------------
-- Configuration
------------------------------------------------------------

namespace TemplateTree

/- Text between back quotes, as messages quote a name. -/
def ticked (name : String) : String :=
  "`" ++ name ++ "`"

/- Why a declared engine is not valid. -/
inductive ConfigError where
| unknownOption (stage option : String)
| unknownGlobalOption (engine option : String)
| missingOption (stage option : String)
| invalidOption (stage option expected found : String)
| unknownStage (name : String)
deriving DecidableEq, Repr

namespace ConfigError

/- The wording of a configuration error. -/
def message : ConfigError → String
| .unknownOption stage option =>
    "stage " ++ ticked stage ++ " does not recognize option "
      ++ ticked option
| .unknownGlobalOption engine option =>
    "global option " ++ ticked option ++ " of engine "
      ++ ticked engine ++ " is not recognized by any stage"
| .missingOption stage option =>
    "stage " ++ ticked stage ++ " requires option " ++ ticked option
| .invalidOption stage option expected found =>
    "option " ++ ticked option ++ " of stage " ++ ticked stage
      ++ " expects " ++ expected ++ ", found " ++ found
| .unknownStage name => "unknown stage " ++ ticked name

/- The code of a configuration error. -/
def code : ConfigError → String
| .unknownOption _ _ => "wf::config::unknown_option"
| .unknownGlobalOption _ _ => "wf::config::unknown_global_option"
| .missingOption _ _ => "wf::config::missing_option"
| .invalidOption _ _ _ _ => "wf::config::invalid_option"
| .unknownStage _ => "wf::config::unknown_stage"

/- The advice that goes with a configuration error. -/
def help? : ConfigError → Option String
| .unknownOption _ _ =>
    some "run `wf stages` to list the options each stage accepts"
| .unknownStage _ =>
    some "run `wf stages` to list the registered stages"
| _ => none

end ConfigError

------------------------------------------------------------
-- Compilation
------------------------------------------------------------

/-
  Why a tree cannot be processed.  A `shape` error blames a
  node that a stage does not accept, a `generation` error a
  node that it cannot produce output for.
-/
inductive CompileError where
| shape (stage : String) (node : Node) (message : String)
| configuration (cause : ConfigError)
| generation (stage : String) (node : Option Node) (message : String)
| decode (message : String)
| encode (message : String)
| pipeline
    (engine : String)
    (position : Nat)
    (stage : String)
    (source : CompileError)
deriving DecidableEq, Repr

namespace CompileError

/- The wording of an error, its wrappings included. -/
def message : CompileError → String
| .shape stage node text =>
    "[" ++ stage ++ "] unexpected " ++ ticked node.tag ++ " node: "
      ++ text
| .configuration cause => cause.message
| .generation stage _ text =>
    "[" ++ stage ++ "] cannot generate output: " ++ text
| .decode text => "malformed IR encoding: " ++ text
| .encode text => "cannot encode IR tree: " ++ text
| .pipeline engine position stage source =>
    "stage #" ++ toString position ++ " " ++ ticked stage
      ++ " of engine " ++ ticked engine ++ " failed: "
      ++ source.message

/- The code of an error. -/
def code : CompileError → String
| .shape _ _ _ => "wf::shape"
| .configuration cause => cause.code
| .generation _ _ _ => "wf::generation"
| .decode _ => "wf::decode"
| .encode _ => "wf::encode"
| .pipeline _ _ _ _ => "wf::pipeline"

/- The advice that goes with an error. -/
def help? : CompileError → Option String
| .configuration cause => cause.help?
| _ => none

/- The error of the stage that failed, without wrappings. -/
def rootCause : CompileError → CompileError
| .pipeline _ _ _ source => source.rootCause
| error => error

/- The positions of the failing stages, outermost first. -/
def positionPath : CompileError → List Nat
| .pipeline _ position _ source => position :: source.positionPath
| _ => []

/-
  The stage that failed: the one the root cause names, and
  otherwise the one of the innermost wrapping.
-/
def failingStageFrom (wrapped : Option String) : CompileError → Option String
| .pipeline _ _ stage source => failingStageFrom (some stage) source
| .shape stage _ _ => some stage
| .generation stage _ _ => some stage
| _ => wrapped

/- The stage that failed. -/
def failingStage? (error : CompileError) : Option String :=
  failingStageFrom none error

/- The node that the root cause blames. -/
def node? (error : CompileError) : Option Node :=
  match error.rootCause with
  | .shape _ node _ => some node
  | .generation _ node _ => node
  | _ => none

/- The errors that an error wraps, outermost first. -/
def sources : CompileError → List CompileError
| .pipeline _ _ _ source => source :: source.sources
| _ => []

end CompileError

------------------------------------------------------------
-- Commands
------------------------------------------------------------

/- Why a command cannot be carried out. -/
inductive CommandError where
| io (path message : String)
| engineFile (path message : String)
| invalidInput (message : String)
| compile (cause : CompileError)
deriving DecidableEq, Repr

namespace CommandError

/- The wording of a command's error. -/
def message : CommandError → String
| .io path text => "IO error on " ++ path ++ ": " ++ text
| .engineFile path text =>
    "Engine file error in " ++ path ++ ": " ++ text
| .invalidInput text => "Invalid input: " ++ text
| .compile cause => cause.message

/- The code of a command's error. -/
def code : CommandError → String
| .io _ _ => "wf::io"
| .engineFile _ _ => "wf::engine_file"
| .invalidInput _ => "wf::invalid_input"
| .compile cause => cause.code

/- The advice that goes with a command's error. -/
def help? : CommandError → Option String
| .engineFile _ _ =>
    some "see `wf stages` for the filters and generators an engine file can declare"
| .compile cause => cause.help?
| _ => none

/- The messages of the errors behind an error, outermost first. -/
def causes : CommandError → List String
| .io _ text => [text]
| .compile cause => cause.sources.map CompileError.message
| _ => []

end CommandError

end TemplateTree
