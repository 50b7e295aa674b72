import TemplateTree.Command.Directory
import TemplateTree.Error

/-
  What a command does, step by step.

  Key definitions include:
    * `Action`
    * `Action.bind`
    * `World`
    * `Action.exec`

  An action asks for one thing after another, and what it
  asks for next depends on the answers.  It can fail at any
  point, with all that it did before left behind.
-/

------------------------------------------------------------
-- Actions
------------------------------------------------------------

namespace TemplateTree

universe u v

/-
  A step that reads a file, writes one or prints is answered
  by the system, which may refuse it and then says why.
-/
inductive Action (α : Type u) : Type u where
| done (value : α)
| fail (error : CommandError)
| read
    (path : String)
    (next : Except String (List UInt8) → Action α)
| write
    (path : String)
    (bytes : List UInt8)
    (next : Except String Unit → Action α)
| print
    (bytes : List UInt8)
    (next : Except String Unit → Action α)

namespace Action

variable {α : Type u} {β : Type v}

/- Go on with the value of an action, unless it fails. -/
def bind : Action α → (α → Action β) → Action β
| .done value, f => f value
| .fail error, _ => .fail error
| .read path next, f =>
    .read path fun answer => (next answer).bind f
| .write path bytes next, f =>
    .write path bytes fun answer => (next answer).bind f
| .print bytes next, f =>
    .print bytes fun answer => (next answer).bind f

/- A result that asks for nothing. -/
def ofResult : Except CommandError α → Action α
| .ok value => .done value
| .error error => .fail error

/- An answer about a file, where a refusal is a failure. -/
def ofAnswer
    (path : String)
    (answer : Except String α) : Action α :=
  ofResult (answer.mapError (.io path))

/- Read the bytes of a file. -/
def readBytes (path : String) : Action (List UInt8) :=
  .read path (ofAnswer path)

/- Print some bytes, or write them to a file if one is given. -/
def put
    (output : Option String)
    (bytes : List UInt8) : Action Unit :=
  match output with
  | some path => .write path bytes (ofAnswer path)
  | none => .print bytes (ofAnswer "<stdout>")

end Action

------------------------------------------------------------
-- Worlds
------------------------------------------------------------

/- The standard output takes what is printed, or it does not. -/
inductive Stdout where
| opened
| refused (message : String)
deriving DecidableEq, Repr

/- The files there are, and what was printed. -/
structure World where
  directory : Directory
  stdout : Stdout
  printed : List UInt8
deriving DecidableEq, Repr

namespace World

/- The bytes of a file, seen from a folder. -/
def read
    (world : World)
    (here : Directory.Place)
    (path : String) : Except String (List UInt8) :=
  (world.directory.read here path).mapError Directory.Fault.message

/- Make a file hold some bytes, all of them or none. -/
def write
    (world : World)
    (here : Directory.Place)
    (path : String)
    (bytes : List UInt8) : Except String Unit × World :=
  match world.directory.write here path bytes with
  | .ok directory => (.ok (), { world with directory := directory })
  | .error fault => (.error fault.message, world)

/- Print some bytes, all of them or none. -/
def print
    (world : World)
    (bytes : List UInt8) : Except String Unit × World :=
  match world.stdout with
  | .opened =>
      (.ok (), { world with printed := world.printed ++ bytes })
  | .refused message => (.error message, world)

end World

/- Take all steps of an action, in a folder of a world. -/
def Action.exec
    {α : Type u}
    (here : Directory.Place) :
    Action α → World → Except CommandError α × World
| .done value, world => (.ok value, world)
| .fail error, world => (.error error, world)
| .read path next, world =>
    (next (world.read here path)).exec here world
| .write path bytes next, world =>
    let answer := world.write here path bytes
    (next answer.1).exec here answer.2
| .print bytes next, world =>
    let answer := world.print bytes
    (next answer.1).exec here answer.2

end TemplateTree
