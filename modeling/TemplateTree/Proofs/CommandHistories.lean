import TemplateTree.Proofs.TreeConversion

/-
  Commands that are run one after another.

  Main declarations:
    * `Command.Yields`
    * `Command.perform_eq_ok_iff`
    * `Command.ends_runWith`
    * `Command.Step.IsAtomic`
    * `Command.history_done`
    * `Command.final_done`
    * `failed_commands_leave_no_trace`

  Everything that a command reads is read before it writes,
  so that the path it writes to is of no account for what it
  writes.  The write comes last, and a command whose write is
  refused has done nothing else.
-/

------------------------------------------------------------
-- What Commands Yield
------------------------------------------------------------

namespace TemplateTree

theorem Effect.output_injective
    (path : Option String) :
    Function.Injective (Effect.output path) := by
  intro bytes other hSame
  cases path with
  | none =>
      cases hSame
      rfl
  | some path =>
      cases hSame
      rfl

/- The same effect, at another path if it writes a file. -/
def Effect.toward (target : String) : Effect → Effect
| .print bytes => .print bytes
| .write _ bytes => .write target bytes

theorem Effect.toward_output
    (target : String)
    (path : Option String)
    (bytes : List UInt8) :
    (Effect.output path bytes).toward target =
      Effect.output (path.map fun _ => target) bytes := by
  cases path with
  | none => rfl
  | some path => rfl

namespace Command

/- The path that a command writes to, if it writes a file. -/
def output? : Command → Option String
| .compile _ _ _ output => output
| .render _ _ _ => none
| .encode _ output => some output
| .decode _ output _ => output
| .stages => none

/- The same command, writing to another path if it writes. -/
def toward (target : String) : Command → Command
| .compile input engine generator output =>
    .compile input engine generator (output.map fun _ => target)
| .render input engine bindings =>
    .render input engine bindings
| .encode input _ => .encode input target
| .decode input output compact =>
    .decode input (output.map fun _ => target) compact
| .stages => .stages

/-
  The bytes that a command has to show for the files it can
  read, wherever they go.
-/
inductive Yields (read : ReadFile) :
    Command → List UInt8 → Prop
| compile
    {input program : String}
    {engine generator output : Option String}
    {file : EngineFile}
    {compiler : Engine Node String}
    {tree : Node}
    (hFile : loadEngineFile read engine = .ok file)
    (hCompiler : file.compiler generator = .ok compiler)
    (hTree : loadTree read input = .ok tree)
    (hProgram : (compiler.run tree).result = .ok program) :
    Yields read (.compile input engine generator output)
      (Utf8.encode program)
| render
    {input text : String}
    {engine : Option String}
    {bindings : List String}
    {values : List (String × Literal)}
    {file : EngineFile}
    {filters : Option (Engine Node Node)}
    {tree reduced : Node}
    (hValues : Binding.parseAll bindings = .ok values)
    (hFile : loadEngineFile read engine = .ok file)
    (hFilters : file.filterEngine = .ok filters)
    (hTree : loadTree read input = .ok tree)
    (hReduced : filtered filters tree = .ok reduced)
    (hText :
      Render.render (NameMap.ofList values) reduced =
        .ok text) :
    Yields read (.render input engine bindings)
      (Utf8.encode text)
| encode
    {input output : String}
    {tree : Node}
    {bytes : List UInt8}
    (hTree : loadTree read input = .ok tree)
    (hBytes : Binary.encode tree = .ok bytes) :
    Yields read (.encode input output) bytes
| decode
    {input text : String}
    {output : Option String}
    {compact : Bool}
    {tree : Node}
    (hTree : loadTree read input = .ok tree)
    (hText : jsonLines compact tree = .ok text) :
    Yields read (.decode input output compact)
      (Utf8.encode text)
| stages :
    Yields read .stages (Utf8.encode Catalogue.listing)

/- The effect of a command is to put out what it yields. -/
theorem perform_eq_ok_iff
    {read : ReadFile}
    {command : Command}
    {effect : Effect} :
    command.perform read = .ok effect ↔
      ∃ bytes,
        command.Yields read bytes ∧
          Effect.output command.output? bytes = effect := by
  constructor
  · intro h
    cases command with
    | compile input engine generator output =>
        simp only [perform_compile, Except.bind_eq_ok_iff,
          Except.map_eq_ok_iff, Except.mapError_eq_ok_iff] at h
        rcases h with
          ⟨file, hFile, compiler, hCompiler, tree, hTree,
            program, hProgram, rfl⟩
        exact
          ⟨_, .compile hFile hCompiler hTree hProgram, rfl⟩
    | render input engine bindings =>
        simp only [perform_render, Except.bind_eq_ok_iff,
          Except.map_eq_ok_iff, Except.mapError_eq_ok_iff] at h
        rcases h with
          ⟨values, hValues, file, hFile, filters, hFilters,
            tree, hTree, reduced, hReduced, text, hText, rfl⟩
        exact
          ⟨_, .render hValues hFile hFilters hTree hReduced hText,
            rfl⟩
    | encode input output =>
        simp only [perform_encode, Except.bind_eq_ok_iff,
          Except.map_eq_ok_iff, Except.mapError_eq_ok_iff] at h
        rcases h with ⟨tree, hTree, bytes, hBytes, rfl⟩
        exact ⟨_, .encode hTree hBytes, rfl⟩
    | decode input output compact =>
        simp only [perform_decode, Except.bind_eq_ok_iff,
          Except.map_eq_ok_iff, Except.mapError_eq_ok_iff] at h
        rcases h with ⟨tree, hTree, text, hText, rfl⟩
        exact ⟨_, .decode hTree hText, rfl⟩
    | stages =>
        cases h
        exact ⟨_, .stages, rfl⟩
  · rintro ⟨bytes, hYields, rfl⟩
    cases hYields with
    | compile hFile hCompiler hTree hProgram =>
        simp [perform_compile, hFile, hCompiler, hTree, hProgram,
          output?]
    | render hValues hFile hFilters hTree hReduced hText =>
        simp [perform_render, hValues, hFile, hFilters, hTree,
          hReduced, hText, output?, Effect.output]
    | encode hTree hBytes =>
        simp [perform_encode, hTree, hBytes, output?, Effect.output]
    | decode hTree hText =>
        simp [perform_decode, hTree, hText, output?]
    | stages => rfl

theorem Yields.unique
    {read : ReadFile}
    {command : Command}
    {bytes other : List UInt8}
    (hBytes : command.Yields read bytes)
    (hOther : command.Yields read other) :
    bytes = other := by
  have hFirst := perform_eq_ok_iff.mpr ⟨_, hBytes, rfl⟩
  have hSecond := perform_eq_ok_iff.mpr ⟨_, hOther, rfl⟩
  rw [hFirst] at hSecond
  exact Effect.output_injective _ (Except.ok.inj hSecond)

------------------------------------------------------------
-- What Commands Depend On
------------------------------------------------------------

theorem loadTree_congr
    {read read' : ReadFile}
    {path : String}
    (hRead : read path = read' path) :
    loadTree read path = loadTree read' path := by
  simp only [loadTree, readBytes, hRead]

theorem loadEngineFile_congr
    {read read' : ReadFile}
    {engine : Option String}
    (hRead : ∀ path ∈ engine.toList, read path = read' path) :
    loadEngineFile read engine = loadEngineFile read' engine := by
  cases engine with
  | none => rfl
  | some path =>
      have hPath := hRead path (by simp)
      simp only [loadEngineFile, readBytes, hPath]

/- A command sees no more than its input and engine file. -/
theorem perform_congr
    {read read' : ReadFile}
    {command : Command}
    (hRead : ∀ path ∈ command.inputs, read path = read' path) :
    command.perform read = command.perform read' := by
  cases command with
  | compile input engine generator output =>
      rcases List.forall_mem_cons.mp hRead with
        ⟨hInput, hEngine⟩
      simp only [perform_compile, loadTree_congr hInput,
        loadEngineFile_congr hEngine]
  | render input engine bindings =>
      rcases List.forall_mem_cons.mp hRead with
        ⟨hInput, hEngine⟩
      simp only [perform_render, loadTree_congr hInput,
        loadEngineFile_congr hEngine]
  | encode input output =>
      have hInput := hRead input (by simp [inputs])
      simp only [perform_encode, loadTree_congr hInput]
  | decode input output compact =>
      have hInput := hRead input (by simp [inputs])
      simp only [perform_decode, loadTree_congr hInput]
  | stages => rfl

/- Writing elsewhere changes where a command writes alone. -/
theorem perform_toward
    (read : ReadFile)
    (target : String)
    (command : Command) :
    (command.toward target).perform read =
      (command.perform read).map (Effect.toward target) := by
  cases command with
  | compile input engine generator output =>
      simp only [toward, perform_compile, Except.map_bind,
        Except.map_map, Effect.toward_output]
  | render input engine bindings =>
      simp only [toward, perform_render, Except.map_bind,
        Except.map_map, Effect.toward]
  | encode input output =>
      simp only [toward, perform_encode, Except.map_bind,
        Except.map_map, Effect.toward]
  | decode input output compact =>
      simp only [toward, perform_decode, Except.map_bind,
        Except.map_map, Effect.toward_output]
  | stages => rfl

------------------------------------------------------------
-- How Commands End
------------------------------------------------------------

/- The ways in which a command ends in a directory. -/
inductive Ends
    (stdout : Stdout)
    (dir : Directory)
    (here : Directory.Place)
    (command : Command) : Outcome → Prop
| refused
    {error : CommandError}
    (hError :
      command.perform (readIn dir here) = .error error) :
    Ends stdout dir here command (.failed dir error)
| printed
    {bytes : List UInt8}
    (hPath : command.output? = none)
    (hYields : command.Yields (readIn dir here) bytes)
    (hOpened : stdout = .opened) :
    Ends stdout dir here command ⟨.ok (), bytes, dir⟩
| unprintable
    {bytes : List UInt8}
    {message : String}
    (hPath : command.output? = none)
    (hYields : command.Yields (readIn dir here) bytes)
    (hRefused : stdout = .refused message) :
    Ends stdout dir here command
      (.failed dir (.io "<stdout>" message))
| wrote
    {path : String}
    {bytes : List UInt8}
    {dir' : Directory}
    (hPath : command.output? = some path)
    (hYields : command.Yields (readIn dir here) bytes)
    (hWrite : dir.write here path bytes = .ok dir') :
    Ends stdout dir here command ⟨.ok (), [], dir'⟩
| unwritable
    {path : String}
    {bytes : List UInt8}
    {fault : Directory.Fault}
    (hPath : command.output? = some path)
    (hYields : command.Yields (readIn dir here) bytes)
    (hFault : dir.write here path bytes = .error fault) :
    Ends stdout dir here command
      (.failed dir (.io path fault.message))

theorem ends_runWith
    (stdout : Stdout)
    (dir : Directory)
    (here : Directory.Place)
    (command : Command) :
    Ends stdout dir here command
      (command.runWith stdout dir here) := by
  cases hPerform : command.perform (readIn dir here) with
  | error error =>
      rw [runWith_eq_failed hPerform]
      exact .refused hPerform
  | ok effect =>
      rcases perform_eq_ok_iff.mp hPerform with
        ⟨bytes, hYields, rfl⟩
      cases hPath : command.output? with
      | none =>
          rw [hPath] at hPerform
          rcases runWith_print_cases stdout hPerform with
            ⟨hOpened, hRun⟩ | ⟨message, hRefused, hRun⟩
          · rw [hRun]
            exact .printed hPath hYields hOpened
          · rw [hRun]
            exact .unprintable hPath hYields hRefused
      | some path =>
          rw [hPath] at hPerform
          rcases runWith_write_cases stdout hPerform with
            ⟨dir', hWrite, hRun⟩ | ⟨fault, hFault, hRun⟩
          · rw [hRun]
            exact .wrote hPath hYields hWrite
          · rw [hRun]
            exact .unwritable hPath hYields hFault

section Endings

variable {stdout : Stdout}
variable {dir : Directory}
variable {here : Directory.Place}
variable {command : Command}
variable {outcome : Outcome}

/- A command can put out some bytes, printed or written. -/
def CanPut
    (stdout : Stdout)
    (dir : Directory)
    (here : Directory.Place)
    (command : Command)
    (bytes : List UInt8) : Prop :=
  (command.output? = none → stdout = .opened) ∧
    ∀ path,
      command.output? = some path →
        ∃ dir', dir.write here path bytes = .ok dir'

/- A command succeeds if it yields bytes and can put them out. -/
theorem Ends.ok_iff
    (hEnds : Ends stdout dir here command outcome) :
    outcome.result = .ok () ↔
      ∃ bytes,
        command.Yields (readIn dir here) bytes ∧
          command.CanPut stdout dir here bytes := by
  cases hEnds with
  | refused hError =>
      refine iff_of_false (by simp [Outcome.failed]) ?_
      rintro ⟨bytes, hYields, -⟩
      have hOk := perform_eq_ok_iff.mpr ⟨bytes, hYields, rfl⟩
      rw [hError] at hOk
      cases hOk
  | printed hPath hYields hOpened =>
      refine iff_of_true rfl ⟨_, hYields, fun _ => hOpened, ?_⟩
      intro path hSome
      rw [hPath] at hSome
      cases hSome
  | unprintable hPath _ hRefused =>
      refine iff_of_false (by simp [Outcome.failed]) ?_
      rintro ⟨bytes, -, hOpened, -⟩
      rw [hOpened hPath] at hRefused
      cases hRefused
  | wrote hPath hYields hWrite =>
      refine iff_of_true rfl ⟨_, hYields, ?_, ?_⟩
      · intro hNone
        rw [hPath] at hNone
        cases hNone
      · intro path hSome
        rw [hPath] at hSome
        cases hSome
        exact ⟨_, hWrite⟩
  | unwritable hPath hYields hFault =>
      refine iff_of_false (by simp [Outcome.failed]) ?_
      -- There is only one thing to put out, and it cannot be.
      rintro ⟨bytes, hOther, -, hPut⟩
      rcases hPut _ hPath with ⟨dir', hWrite⟩
      rw [← hYields.unique hOther, hFault] at hWrite
      cases hWrite

/- A command without a path to write to prints what it yields. -/
theorem Ends.yields_printed
    (hEnds : Ends stdout dir here command outcome)
    (hOk : outcome.result = .ok ())
    (hNone : command.output? = none) :
    command.Yields (readIn dir here) outcome.printed ∧
      outcome.directory = dir := by
  cases hEnds with
  | refused _ => cases hOk
  | printed _ hYields _ => exact ⟨hYields, rfl⟩
  | unprintable _ _ _ => cases hOk
  | wrote hPath _ _ =>
      rw [hNone] at hPath
      cases hPath
  | unwritable _ _ _ => cases hOk

/- A command with such a path leaves there what it yields. -/
theorem Ends.sets_output
    {path : String}
    (hEnds : Ends stdout dir here command outcome)
    (hOk : outcome.result = .ok ())
    (hSome : command.output? = some path) :
    outcome.printed = [] ∧
      ∃ bytes,
        command.Yields (readIn dir here) bytes ∧
          dir.Sets here path bytes outcome.directory := by
  cases hEnds with
  | refused _ => cases hOk
  | printed hPath _ _ =>
      rw [hSome] at hPath
      cases hPath
  | unprintable _ _ _ => cases hOk
  | wrote hPath hYields hWrite =>
      rw [hSome] at hPath
      cases hPath
      exact ⟨rfl, _, hYields, Directory.sets_of_write hWrite⟩
  | unwritable _ _ _ => cases hOk

end Endings

------------------------------------------------------------
-- Histories
------------------------------------------------------------

/- A command, with the standard output it is given. -/
structure Call where
  command : Command
  stdout : Stdout

/- A call that was made, with what it found and left. -/
structure Step where
  before : Directory
  call : Call
  outcome : Outcome

def Step.succeeded (step : Step) : Bool :=
  step.outcome.result.isOk

/- Make a call in a folder of a directory. -/
def Call.step
    (here : Directory.Place)
    (dir : Directory)
    (call : Call) : Step :=
  ⟨dir, call, call.command.runWith call.stdout dir here⟩

/- The steps of some calls, each in what the last one left. -/
def history
    (here : Directory.Place) :
    Directory → List Call → List Step
| _, [] => []
| dir, call :: rest =>
    call.step here dir ::
      history here (call.step here dir).outcome.directory rest

/- The directory after some calls. -/
def final
    (here : Directory.Place) :
    Directory → List Call → Directory
| dir, [] => dir
| dir, call :: rest =>
    final here (call.step here dir).outcome.directory rest

/-
  A step that happens whole or not at all.

  What it puts out is what its command yields on the directory
  before it.  That depends on the input and the engine file of
  the command only, and not on the path it writes to, so it is
  the same when that path leads to one of them.
-/
structure Step.IsAtomic
    (here : Directory.Place)
    (step : Step) : Prop where
  ran :
    step.outcome =
      step.call.command.runWith step.call.stdout step.before here
  succeeds :
    step.outcome.result = .ok () ↔
      ∃ bytes,
        step.call.command.Yields (readIn step.before here)
            bytes ∧
          step.call.command.CanPut step.call.stdout step.before
            here bytes
  failed :
    ∀ error,
      step.outcome.result = .error error →
        step.outcome.printed = [] ∧
          step.outcome.directory = step.before
  printed :
    step.outcome.result = .ok () →
    step.call.command.output? = none →
      step.call.command.Yields (readIn step.before here)
          step.outcome.printed ∧
        step.outcome.directory = step.before
  written :
    ∀ path,
      step.outcome.result = .ok () →
      step.call.command.output? = some path →
        step.outcome.printed = [] ∧
          ∃ bytes,
            step.call.command.Yields (readIn step.before here)
                bytes ∧
              step.before.Sets here path bytes
                step.outcome.directory
  sees :
    ∀ dir : Directory,
      (∀ path ∈ step.call.command.inputs,
        dir.read here path = step.before.read here path) →
      step.call.command.perform (readIn dir here) =
        step.call.command.perform (readIn step.before here)
  aims :
    ∀ target,
      (step.call.command.toward target).perform
          (readIn step.before here) =
        (step.call.command.perform
            (readIn step.before here)).map
          (Effect.toward target)

/- One call is one such step. -/
theorem isAtomic_step
    (here : Directory.Place)
    (dir : Directory)
    (call : Call) :
    (call.step here dir).IsAtomic here := by
  have hEnds := ends_runWith call.stdout dir here call.command
  refine
    { ran := rfl
      succeeds := hEnds.ok_iff
      failed := fun _ => runWith_unchanged_of_error
      printed := hEnds.yields_printed
      written := fun _ => hEnds.sets_output
      sees := ?_
      aims := fun target => perform_toward _ target call.command }
  intro other hRead
  apply perform_congr
  intro path hPath
  rw [readIn, readIn]
  exact congrArg _ (hRead path hPath)

/- So is each call of a history. -/
theorem isAtomic_of_mem_history
    {here : Directory.Place}
    {dir : Directory}
    {calls : List Call}
    {step : Step}
    (hStep : step ∈ history here dir calls) :
    step.IsAtomic here := by
  induction calls generalizing dir with
  | nil => cases hStep
  | cons call rest ih =>
      rw [history, List.mem_cons] at hStep
      rcases hStep with rfl | hRest
      · exact isAtomic_step here dir call
      · exact ih hRest

/- The calls of a history that did not fail. -/
def done
    (here : Directory.Place)
    (dir : Directory)
    (calls : List Call) : List Call :=
  ((history here dir calls).filter Step.succeeded).map Step.call

/-
  A call is done or it leaves the directory to the next one as
  it found it.
-/
theorem succeeded_or_unchanged
    (here : Directory.Place)
    (dir : Directory)
    (call : Call) :
    (call.step here dir).succeeded = true ∨
      (call.step here dir).succeeded = false ∧
        (call.step here dir).outcome.directory = dir := by
  rw [Step.succeeded]
  cases hResult : (call.step here dir).outcome.result with
  | ok _ => exact Or.inl rfl
  | error error =>
      exact Or.inr
        ⟨rfl, (runWith_unchanged_of_error hResult).2⟩

/- Without the failed calls, the others go as they did. -/
theorem history_done
    (here : Directory.Place)
    (dir : Directory)
    (calls : List Call) :
    history here dir (done here dir calls) =
      (history here dir calls).filter Step.succeeded := by
  induction calls generalizing dir with
  | nil => rfl
  | cons call rest ih =>
      rw [done, history, List.filter_cons]
      rcases succeeded_or_unchanged here dir call with
        hDone | ⟨hFailed, hSame⟩
      · rw [if_pos hDone, List.map_cons, history]
        exact congrArg _ (ih _)
      -- The next call finds what the failed one found.
      · rw [hFailed, hSame]
        exact ih dir

theorem final_done
    (here : Directory.Place)
    (dir : Directory)
    (calls : List Call) :
    final here dir (done here dir calls) =
      final here dir calls := by
  induction calls generalizing dir with
  | nil => rfl
  | cons call rest ih =>
      rw [done, history, List.filter_cons, final]
      rcases succeeded_or_unchanged here dir call with
        hDone | ⟨hFailed, hSame⟩
      · rw [if_pos hDone, List.map_cons, final]
        exact ih _
      · rw [hFailed, hSame]
        exact ih dir

end Command

/-
  Whatever commands are run one after another, in whatever
  directory and with whatever standard output, each happens
  whole or not at all.  The commands that fail might as well
  not have been run: without them the others end as before,
  and so does the directory.
-/
theorem failed_commands_leave_no_trace
    (here : Directory.Place)
    (dir : Directory)
    (calls : List Command.Call) :
    (∀ step ∈ Command.history here dir calls,
      step.IsAtomic here) ∧
      Command.history here dir (Command.done here dir calls) =
        (Command.history here dir calls).filter
          Command.Step.succeeded ∧
      Command.final here dir (Command.done here dir calls) =
        Command.final here dir calls := by
  refine ⟨?_, ?_, ?_⟩
  · intro step hStep
    exact Command.isAtomic_of_mem_history hStep
  · exact Command.history_done here dir calls
  · exact Command.final_done here dir calls

namespace OverwrittenPage

def page : Node := Node.static "a"

/- The page as a binary file. -/
def bytes : List UInt8 :=
  Binary.magic ++ [Binary.version] ++ Binary.encodeArg page.toArg

/- The page as a document. -/
def document : String := "[\"static\",\"a\"]\n"

def before : Directory := Directory.ofList [("page.wfir", bytes)]

def after : Directory :=
  before.stored ["page.wfir"] (Utf8.encode document)

/- The file is replaced by the document of the tree in it. -/
def decoding : Command :=
  .decode "page.wfir" (some "page.wfir") true

def call : Command.Call := ⟨decoding, .opened⟩

theorem yields_document :
    decoding.Yields (Command.readIn before (.below []))
      (Utf8.encode document) := by
  have hFits : Binary.Fits page.toArg := by
    simp only [page, Node.static, Node.ofText, Node.toArg,
      Arg.text, Binary.Fits, Binary.FitsAll, Binary.FitsLiteral]
    decide
  have hDecode : Binary.decode bytes = .ok page :=
    Binary.decode_eq_ok_iff.mpr
      ⟨Binary.encode_eq_ok_iff.mpr ⟨by decide, rfl⟩, hFits⟩
  have hRead : before.read (.below []) "page.wfir" = .ok bytes := by
    apply Directory.read_eq_ok_iff.mpr
    refine ⟨.below ["page.wfir"], ?_, ?_, ?_, rfl⟩
    all_goals decide
  apply Command.Yields.decode
  · exact loadTree_binary (by decide)
      (Command.readIn_eq_ok_iff.mpr hRead) hDecode
  · decide +kernel

theorem write_document :
    before.write (.below []) "page.wfir" (Utf8.encode document) =
      .ok after := by
  apply Directory.write_eq_ok_iff.mpr
  refine ⟨["page.wfir"], ?_, ?_, ?_, rfl⟩
  all_goals decide

/- The second time, there is no binary file any more. -/
theorem perform_after :
    ∃ error,
      decoding.perform (Command.readIn after (.below [])) =
        .error error := by
  have hRead :
      Command.readIn after (.below []) "page.wfir" =
        .ok (Utf8.encode document) :=
    Command.readIn_eq_ok_iff.mpr
      (Directory.read_written write_document)
  have hFormat : TreeFormat.ofPath "page.wfir" = .binary := by
    decide
  have hDecode :
      ∃ error,
        Binary.decode (Utf8.encode document) = .error error :=
    ⟨_, rfl⟩
  rcases hDecode with ⟨error, hDecode⟩
  exact ⟨.compile error, by
    simp [decoding, Command.perform_decode, loadTree, treeOf,
      readBytes, hFormat, hRead, hDecode]⟩

theorem overwritten_page_leaves_no_trace :
    ∃ error,
      Command.history (.below []) before [call, call] =
          [⟨before, call, ⟨.ok (), [], after⟩⟩,
            ⟨after, call, .failed after error⟩] ∧
        before.Sets (.below []) "page.wfir"
            (Utf8.encode document) after ∧
          Command.history (.below []) before [call] =
            [⟨before, call, ⟨.ok (), [], after⟩⟩] := by
  have hFirst :
      call.step (.below []) before =
        ⟨before, call, ⟨.ok (), [], after⟩⟩ := by
    apply congrArg (Command.Step.mk before call)
    apply (Command.run_eq_iff_write_eq ?_).mpr write_document
    exact Command.perform_eq_ok_iff.mpr
      ⟨_, yields_document, rfl⟩
  rcases perform_after with ⟨error, hError⟩
  have hSecond :
      call.step (.below []) after =
        ⟨after, call, .failed after error⟩ := by
    apply congrArg (Command.Step.mk after call)
    exact Command.runWith_eq_failed hError
  have hHistory :
      Command.history (.below []) before [call, call] =
        [⟨before, call, ⟨.ok (), [], after⟩⟩,
          ⟨after, call, .failed after error⟩] := by
    simp only [Command.history, hFirst, hSecond]
  rcases failed_commands_leave_no_trace (.below []) before
      [call, call] with
    ⟨hAtomic, hDone, -⟩
  rw [hHistory] at hAtomic
  have hWritten :=
    (hAtomic _ List.mem_cons_self).written "page.wfir" rfl rfl
  rcases hWritten with ⟨-, found, hYields, hSets⟩
  rw [hYields.unique yields_document] at hSets
  refine ⟨error, hHistory, hSets, ?_⟩
  rw [Command.done, hHistory] at hDone
  exact hDone

end OverwrittenPage

end TemplateTree
