import TemplateTree.Engine.Registry
import TemplateTree.Text.Quoted

/-
  Building engines.

  Key definitions include:
    * `Engine`
    * `Draft`
    * `Draft.declare`
    * `Draft.build`

  A draft collects stages in order.  Stages that are declared
  see the options of the whole engine, and the draft keeps
  the names of the options they understand.  A finished
  engine has no option that none of them understands.
-/

------------------------------------------------------------
-- Engines
------------------------------------------------------------

namespace TemplateTree

/- A named chain of stages. -/
structure Engine (a b : Type) where
  name : String
  chain : Chain a b

namespace Engine

variable {a b : Type}

/- An engine as a stage of another one. -/
def toStage (engine : Engine a b) : Stage a b :=
  .engine engine.name engine.chain

/- The names of an engine's stages. -/
def stageNames (engine : Engine a b) : List String :=
  engine.chain.names

/- The number of an engine's stages. -/
def length (engine : Engine a b) : Nat :=
  engine.chain.length

/- Run an engine on a value. -/
def run
    (engine : Engine a b)
    (x : a) : Run b :=
  engine.chain.run engine.name x

/- An engine in words, for people who debug one. -/
def display (engine : Engine a b) : String :=
  "Engine \x7b name: " ++ Text.quoted engine.name ++ ", stages: ["
    ++ ", ".intercalate (engine.stageNames.map Text.quoted) ++ "] \x7d"

end Engine

------------------------------------------------------------
-- Drafts
------------------------------------------------------------

/- An engine under construction. -/
structure Draft (a b : Type) where
  name : String
  globals : Options
  recognized : NameMap Unit
  chain : Chain a b

namespace Draft

variable {a b c : Type}

/- A draft without options and stages. -/
def start (name : String) : Draft a a where
  name := name
  globals := NameMap.empty
  recognized := NameMap.empty
  chain := .nil

/- Offer options to all declared stages that follow. -/
def withGlobals
    (draft : Draft a b)
    (options : Options) : Draft a b :=
  { draft with globals := draft.globals.insertMany options.entries }

/- Offer one option to all declared stages that follow. -/
def withGlobal
    (draft : Draft a b)
    (name : String)
    (value : OptionValue) : Draft a b :=
  { draft with globals := draft.globals.insert name value }

/- Add a stage that is already made. -/
def add
    (draft : Draft a b)
    (stage : Stage b c) : Draft a c where
  name := draft.name
  globals := draft.globals
  recognized := draft.recognized
  chain := .snoc draft.chain stage

/- Keep the names of options that a stage understands. -/
def recognize
    (draft : Draft a b)
    (specs : List OptionSpec) : Draft a b :=
  { draft with
    recognized := draft.recognized.insertMany
      (specs.map fun spec => (spec.name, ())) }

/- Make a stage from a blueprint and add it. -/
def configure
    (draft : Draft a b)
    (blueprint : Blueprint b c)
    (options : Options) : Except ConfigError (Draft a c) :=
  (blueprint.configure draft.globals options).map fun stage =>
    (draft.recognize blueprint.specs).add stage

/- Make the stage registered under a name and add it. -/
def declare
    (draft : Draft a b)
    (registry : Registry b c)
    (name : String)
    (options : Options) : Except ConfigError (Draft a c) :=
  match registry.get? name with
  | some blueprint => draft.configure blueprint options
  | none => .error (.unknownStage name)

/-
  Finish an engine.  Each option of the whole engine has to
  be one that some declared stage understands.
-/
def build (draft : Draft a b) : Except ConfigError (Engine a b) :=
  match draft.globals.keys.find? fun name =>
      !draft.recognized.contains name with
  | some option =>
      .error (.unknownGlobalOption draft.name option)
  | none => .ok ⟨draft.name, draft.chain⟩

end Draft

end TemplateTree
