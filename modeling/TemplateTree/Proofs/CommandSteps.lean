import TemplateTree.Command
import TemplateTree.Proofs.Except

/-
  The steps of commands.

  Main declarations:
    * `Command.perform`
    * `World.write_cases`
    * `World.print_cases`
    * `Action.PutsLast`
    * `Action.PutsLast.unchanged_of_error`
    * `Command.putsLast_action`
    * `Command.runWith_unchanged_of_error`

  A step that reads leaves the world as it was, and one that
  writes or prints does so too if it is refused.  A command
  takes one step of the second kind, after all others, so
  that what it comes to can be told from the files alone.
-/

------------------------------------------------------------
-- Reading
------------------------------------------------------------

namespace TemplateTree

universe u v w

/- The bytes of the file at a path, or why there are none. -/
abbrev ReadFile := String → Except String (List UInt8)

/- The bytes of a file. -/
def readBytes
    (read : ReadFile)
    (path : String) : Except CommandError (List UInt8) :=
  (read path).mapError (.io path)

/- The tree in a file. -/
def loadTree
    (read : ReadFile)
    (path : String) : Except CommandError Node :=
  (readBytes read path).bind (treeOf path)

/- The engine that a file declares, or the standard one. -/
def loadEngineFile
    (read : ReadFile) :
    Option String → Except CommandError EngineFile
| none => .ok .standard
| some path => (readBytes read path).bind (engineFileOf path)

------------------------------------------------------------
-- Effects
------------------------------------------------------------

/- What a command does to the world when it succeeds. -/
inductive Effect where
| print (bytes : List UInt8)
| write (path : String) (bytes : List UInt8)
deriving DecidableEq, Repr

/- Print some bytes, or write them to a file if one is given. -/
def Effect.output
    (path : Option String)
    (bytes : List UInt8) : Effect :=
  match path with
  | some path => .write path bytes
  | none => .print bytes

/- The step that brings an effect about. -/
def Effect.action : Effect → Action Unit
| .print bytes => Action.put none bytes
| .write path bytes => Action.put (some path) bytes

theorem Effect.action_output
    (output : Option String)
    (bytes : List UInt8) :
    (Effect.output output bytes).action =
      Action.put output bytes := by
  cases output with
  | none => rfl
  | some path => rfl

namespace Action

/-
  What an action comes to, given what can be read: its first
  effect, or why it fails before it has one.
-/
def effect
    (read : ReadFile) :
    Action Unit → Except CommandError Effect
| .done _ => .ok (.print [])
| .fail error => .error error
| .read path next => (next (read path)).effect read
| .write path bytes _ => .ok (.write path bytes)
| .print bytes _ => .ok (.print bytes)

theorem bind_assoc
    {α : Type u}
    {β : Type v}
    {γ : Type w}
    (action : Action α)
    (f : α → Action β)
    (g : β → Action γ) :
    (action.bind f).bind g = action.bind fun x => (f x).bind g := by
  induction action with
  | done value => rfl
  | fail error => rfl
  | read path next ih =>
      exact congrArg (read path) (funext ih)
  | write path bytes next ih =>
      exact congrArg (write path bytes) (funext ih)
  | print bytes next ih =>
      exact congrArg (print bytes) (funext ih)

section Effects

variable {α : Type u}
variable (reader : ReadFile)

theorem effect_ofResult_bind
    (result : Except CommandError α)
    (f : α → Action Unit) :
    ((ofResult result).bind f).effect reader =
      result.bind fun x => (f x).effect reader := by
  cases result with
  | ok x => rfl
  | error error => rfl

theorem effect_readBytes_bind
    (path : String)
    (f : List UInt8 → Action Unit) :
    ((Action.readBytes path).bind f).effect reader =
      (TemplateTree.readBytes reader path).bind fun bytes =>
        (f bytes).effect reader :=
  effect_ofResult_bind reader _ f

theorem effect_loadTree_bind
    (path : String)
    (f : Node → Action Unit) :
    ((Action.loadTree path).bind f).effect reader =
      (TemplateTree.loadTree reader path).bind fun tree =>
        (f tree).effect reader := by
  rw [Action.loadTree, bind_assoc, effect_readBytes_bind,
    TemplateTree.loadTree, Except.bind_assoc]
  simp only [effect_ofResult_bind]

theorem effect_loadEngineFile_bind
    (engine : Option String)
    (f : EngineFile → Action Unit) :
    ((Action.loadEngineFile engine).bind f).effect reader =
      (TemplateTree.loadEngineFile reader engine).bind fun file =>
        (f file).effect reader := by
  cases engine with
  | none => rfl
  | some path =>
      rw [Action.loadEngineFile, bind_assoc,
        effect_readBytes_bind, TemplateTree.loadEngineFile,
        Except.bind_assoc]
      simp only [effect_ofResult_bind]

theorem effect_put
    (output : Option String)
    (bytes : List UInt8) :
    (put output bytes).effect reader =
      .ok (.output output bytes) := by
  cases output with
  | none => rfl
  | some path => rfl

end Effects

end Action

namespace Command

/- The effect of a command, or why it fails. -/
def perform
    (read : ReadFile)
    (command : Command) : Except CommandError Effect :=
  command.action.effect read

/- The files that a command may read. -/
def inputs : Command → List String
| .compile input engine _ _ => input :: engine.toList
| .render input engine _ => input :: engine.toList
| .encode input _ => [input]
| .decode input _ _ => [input]
| .stages => []

section Perform

variable (read : ReadFile)

theorem perform_compile
    (input : String)
    (engine generator output : Option String) :
    (Command.compile input engine generator output).perform read =
      (loadEngineFile read engine).bind fun file =>
      ((file.compiler generator).mapError .ofConfig).bind
        fun compiler =>
      (loadTree read input).bind fun tree =>
      ((compiler.run tree).result.mapError .compile).map
        fun program =>
      .output output (Utf8.encode program) := by
  simp only [perform, action, Action.effect_loadEngineFile_bind,
    Action.ofConfig, Action.effect_ofResult_bind,
    Action.effect_loadTree_bind, Action.ofCompile,
    Action.effect_put, Except.bind_ok_eq_map]

theorem perform_render
    (input : String)
    (engine : Option String)
    (bindings : List String) :
    (Command.render input engine bindings).perform read =
      ((Binding.parseAll bindings).mapError
        fun fault => .invalidInput fault.message).bind
          fun values =>
      (loadEngineFile read engine).bind fun file =>
      (file.filterEngine.mapError .ofConfig).bind fun filters =>
      (loadTree read input).bind fun tree =>
      ((filtered filters tree).mapError .compile).bind
        fun reduced =>
      ((Render.render (NameMap.ofList values) reduced).mapError
        .compile).map fun text =>
      .print (Utf8.encode text) := by
  simp only [perform, action, Action.ofBindings,
    Action.effect_loadEngineFile_bind, Action.ofConfig,
    Action.effect_ofResult_bind, Action.effect_loadTree_bind,
    Action.ofCompile, Action.effect_put, Except.bind_ok_eq_map]
  rfl

theorem perform_encode
    (input output : String) :
    (Command.encode input output).perform read =
      (loadTree read input).bind fun tree =>
      ((Binary.encode tree).mapError .compile).map fun bytes =>
      .write output bytes := by
  simp only [perform, action, Action.effect_ofResult_bind,
    Action.effect_loadTree_bind, Action.ofCompile,
    Action.effect_put, Except.bind_ok_eq_map]
  rfl

theorem perform_decode
    (input : String)
    (output : Option String)
    (compact : Bool) :
    (Command.decode input output compact).perform read =
      (loadTree read input).bind fun tree =>
      ((jsonLines compact tree).mapError .compile).map fun text =>
      .output output (Utf8.encode text) := by
  simp only [perform, action, Action.effect_ofResult_bind,
    Action.effect_loadTree_bind, Action.ofCompile,
    Action.effect_put, Except.bind_ok_eq_map]

end Perform

end Command

------------------------------------------------------------
-- Single Steps
------------------------------------------------------------

namespace World

/- A file is written whole, or nothing happens. -/
theorem write_cases
    (world : World)
    (here : Directory.Place)
    (path : String)
    (bytes : List UInt8) :
    (∃ dir,
        world.directory.write here path bytes = .ok dir ∧
          world.write here path bytes =
            (.ok (), { world with directory := dir })) ∨
      ∃ fault,
        world.directory.write here path bytes = .error fault ∧
          world.write here path bytes =
            (.error fault.message, world) := by
  unfold write
  cases world.directory.write here path bytes with
  | ok dir => exact .inl ⟨dir, rfl, rfl⟩
  | error fault => exact .inr ⟨fault, rfl, rfl⟩

/- So are bytes that are printed. -/
theorem print_cases
    (world : World)
    (bytes : List UInt8) :
    (world.stdout = .opened ∧
        world.print bytes =
          (.ok (),
            { world with printed := world.printed ++ bytes })) ∨
      ∃ message,
        world.stdout = .refused message ∧
          world.print bytes = (.error message, world) := by
  unfold print
  cases world.stdout with
  | opened => exact .inl ⟨rfl, rfl⟩
  | refused message => exact .inr ⟨message, rfl, rfl⟩

end World

namespace Action

/- What cannot be put out leaves no part of it behind. -/
theorem exec_put_unchanged
    {here : Directory.Place}
    {output : Option String}
    {bytes : List UInt8}
    {world : World}
    {error : CommandError}
    (h : ((put output bytes).exec here world).1 = .error error) :
    ((put output bytes).exec here world).2 = world := by
  cases output with
  | some path =>
      rw [put, exec] at h ⊢
      rcases world.write_cases here path bytes with
        ⟨dir, -, hWrite⟩ | ⟨fault, -, hWrite⟩
      · rw [hWrite] at h
        cases h
      · rw [hWrite]
        rfl
  | none =>
      rw [put, exec] at h ⊢
      rcases world.print_cases bytes with
        ⟨-, hPrint⟩ | ⟨message, -, hPrint⟩
      · rw [hPrint] at h
        cases h
      · rw [hPrint]
        rfl

------------------------------------------------------------
-- Runs
------------------------------------------------------------

/-
  An action that reads as often as it likes, and then fails or
  puts something out as the last thing it does.
-/
inductive PutsLast : Action Unit → Prop
| fail
    (error : CommandError) :
    PutsLast (.fail error)
| read
    {path : String}
    {next : Except String (List UInt8) → Action Unit}
    (hNext : ∀ answer, PutsLast (next answer)) :
    PutsLast (.read path next)
| put
    (output : Option String)
    (bytes : List UInt8) :
    PutsLast (.put output bytes)

/- If it fails, then before it did anything, so all is as it was. -/
theorem PutsLast.unchanged_of_error
    {action : Action Unit}
    (hAction : action.PutsLast)
    {here : Directory.Place}
    {world : World}
    {error : CommandError}
    (h : (action.exec here world).1 = .error error) :
    (action.exec here world).2 = world := by
  induction hAction with
  | fail error => rfl
  -- The answer to a read is found in the world as it was.
  | read _ ih => exact ih _ h
  | put output bytes => exact exec_put_unchanged h

/- What it comes to is told by what it reads. -/
theorem PutsLast.exec_of_effect_error
    {action : Action Unit}
    (hAction : action.PutsLast)
    (here : Directory.Place)
    (world : World)
    {error : CommandError}
    (h : action.effect (world.read here) = .error error) :
    action.exec here world = (.error error, world) := by
  induction hAction with
  | fail _ =>
      cases h
      rfl
  | read _ ih => exact ih _ h
  | put output bytes =>
      rw [effect_put] at h
      cases h

theorem PutsLast.exec_of_effect_ok
    {action : Action Unit}
    (hAction : action.PutsLast)
    (here : Directory.Place)
    (world : World)
    {effect : Effect}
    (h : action.effect (world.read here) = .ok effect) :
    action.exec here world = effect.action.exec here world := by
  induction hAction with
  | fail _ => cases h
  | read _ ih => exact ih _ h
  | put output bytes =>
      rw [effect_put] at h
      cases h
      rw [Effect.action_output]

section PutsLast

variable {α : Type u}

theorem putsLast_ofResult_bind
    (result : Except CommandError α)
    {f : α → Action Unit}
    (hf : ∀ x, (f x).PutsLast) :
    ((ofResult result).bind f).PutsLast := by
  cases result with
  | ok x => exact hf x
  | error error => exact .fail error

theorem putsLast_readBytes_bind
    (path : String)
    {f : List UInt8 → Action Unit}
    (hf : ∀ bytes, (f bytes).PutsLast) :
    ((Action.readBytes path).bind f).PutsLast :=
  .read fun _ => putsLast_ofResult_bind _ hf

theorem putsLast_loadTree_bind
    (path : String)
    {f : Node → Action Unit}
    (hf : ∀ tree, (f tree).PutsLast) :
    ((Action.loadTree path).bind f).PutsLast := by
  rw [Action.loadTree, bind_assoc]
  exact putsLast_readBytes_bind path fun _ =>
    putsLast_ofResult_bind _ hf

theorem putsLast_loadEngineFile_bind
    (engine : Option String)
    {f : EngineFile → Action Unit}
    (hf : ∀ file, (f file).PutsLast) :
    ((Action.loadEngineFile engine).bind f).PutsLast := by
  cases engine with
  | none => exact hf .standard
  | some path =>
      rw [Action.loadEngineFile, bind_assoc]
      exact putsLast_readBytes_bind path fun _ =>
        putsLast_ofResult_bind _ hf

end PutsLast

end Action

namespace Command

theorem putsLast_action
    (command : Command) :
    command.action.PutsLast := by
  cases command with
  | compile input engine generator output =>
      refine Action.putsLast_loadEngineFile_bind engine fun file => ?_
      refine Action.putsLast_ofResult_bind _ fun compiler => ?_
      refine Action.putsLast_loadTree_bind input fun tree => ?_
      refine Action.putsLast_ofResult_bind _ fun program => ?_
      exact .put output _
  | render input engine bindings =>
      refine Action.putsLast_ofResult_bind _ fun values => ?_
      refine Action.putsLast_loadEngineFile_bind engine fun file => ?_
      refine Action.putsLast_ofResult_bind _ fun filters => ?_
      refine Action.putsLast_loadTree_bind input fun tree => ?_
      refine Action.putsLast_ofResult_bind _ fun reduced => ?_
      refine Action.putsLast_ofResult_bind _ fun text => ?_
      exact .put none _
  | encode input output =>
      refine Action.putsLast_loadTree_bind input fun tree => ?_
      refine Action.putsLast_ofResult_bind _ fun bytes => ?_
      exact .put (some output) bytes
  | decode input output compact =>
      refine Action.putsLast_loadTree_bind input fun tree => ?_
      refine Action.putsLast_ofResult_bind _ fun text => ?_
      exact .put output _
  | stages => exact .put none _

/- Reading files of a directory, seen from a folder. -/
def readIn
    (dir : Directory)
    (here : Directory.Place) : ReadFile :=
  fun path => (dir.read here path).mapError Directory.Fault.message

section Endings

variable {stdout : Stdout}
variable {dir : Directory}
variable {here : Directory.Place}
variable {command : Command}

/- A command that fails leaves all as it was. -/
theorem runWith_unchanged_of_error
    {error : CommandError}
    (hError :
      (command.runWith stdout dir here).result = .error error) :
    (command.runWith stdout dir here).printed = [] ∧
      (command.runWith stdout dir here).directory = dir := by
  have hWorld :=
    command.putsLast_action.unchanged_of_error hError
  constructor
  · exact congrArg World.printed hWorld
  · exact congrArg World.directory hWorld

theorem runWith_eq_failed
    {error : CommandError}
    (hPerform : command.perform (readIn dir here) = .error error) :
    command.runWith stdout dir here = .failed dir error := by
  have hExec :=
    command.putsLast_action.exec_of_effect_error here
      ⟨dir, stdout, []⟩ hPerform
  rw [runWith, hExec]
  rfl

/- What a command comes to decides how it ends. -/
theorem runWith_congr
    {other : Command}
    (hPerform :
      command.perform (readIn dir here) =
        other.perform (readIn dir here)) :
    command.runWith stdout dir here =
      other.runWith stdout dir here := by
  cases hOther : other.perform (readIn dir here) with
  | error error =>
      rw [runWith_eq_failed (hPerform.trans hOther),
        runWith_eq_failed hOther]
  | ok effect =>
      rw [runWith, runWith,
        command.putsLast_action.exec_of_effect_ok here
          ⟨dir, stdout, []⟩ (hPerform.trans hOther),
        other.putsLast_action.exec_of_effect_ok here
          ⟨dir, stdout, []⟩ hOther]

theorem runWith_write_cases
    (stdout : Stdout)
    {path : String}
    {bytes : List UInt8}
    (hPerform :
      command.perform (readIn dir here) =
        .ok (.write path bytes)) :
    (∃ dir',
        dir.write here path bytes = .ok dir' ∧
          command.runWith stdout dir here =
            ⟨.ok (), [], dir'⟩) ∨
      ∃ fault,
        dir.write here path bytes = .error fault ∧
          command.runWith stdout dir here =
            .failed dir (.io path fault.message) := by
  have hExec :=
    command.putsLast_action.exec_of_effect_ok here
      ⟨dir, stdout, []⟩ hPerform
  rw [Effect.action, Action.put, Action.exec] at hExec
  rw [runWith, hExec]
  rcases World.write_cases ⟨dir, stdout, []⟩ here path bytes with
    ⟨dir', hDir, hWrite⟩ | ⟨fault, hFault, hWrite⟩
  · rw [hWrite]
    exact .inl ⟨dir', hDir, rfl⟩
  · rw [hWrite]
    exact .inr ⟨fault, hFault, rfl⟩

theorem runWith_print_cases
    (stdout : Stdout)
    {bytes : List UInt8}
    (hPerform :
      command.perform (readIn dir here) = .ok (.print bytes)) :
    (stdout = .opened ∧
        command.runWith stdout dir here =
          ⟨.ok (), bytes, dir⟩) ∨
      ∃ message,
        stdout = .refused message ∧
          command.runWith stdout dir here =
            .failed dir (.io "<stdout>" message) := by
  have hExec :=
    command.putsLast_action.exec_of_effect_ok here
      ⟨dir, stdout, []⟩ hPerform
  rw [Effect.action, Action.put, Action.exec] at hExec
  rw [runWith, hExec]
  rcases World.print_cases ⟨dir, stdout, []⟩ bytes with
    ⟨hOpened, hPrint⟩ | ⟨message, hRefused, hPrint⟩
  · rw [hPrint]
    exact .inl ⟨hOpened, rfl⟩
  · rw [hPrint]
    exact .inr ⟨message, hRefused, rfl⟩

end Endings

end Command

end TemplateTree
