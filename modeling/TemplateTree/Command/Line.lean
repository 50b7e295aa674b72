import TemplateTree.Command

/-
  The command line.

  Key definitions include:
    * `CommandLine.Switch`
    * `CommandLine.readArgs`
    * `CommandLine.parse`
    * `CommandLine.run`

  The arguments before the name of a command and those after
  it are read the same way.  They are options with or without
  a value, or words.  Options of the whole program may stand
  in both places.
-/

------------------------------------------------------------
-- Options
------------------------------------------------------------

namespace TemplateTree

namespace CommandLine

/- The names of the commands. -/
inductive CommandName where
| compile
| render
| encode
| decode
| stages
deriving DecidableEq, Repr

/- The command with a given name. -/
def CommandName.ofString? (name : String) : Option CommandName :=
  if name = "compile" then some .compile
  else if name = "render" then some .render
  else if name = "encode" then some .encode
  else if name = "decode" then some .decode
  else if name = "stages" then some .stages
  else none

/- The options of all commands and of the program. -/
inductive Switch where
| verbose
| quiet
| log
| logFormat
| directory
| help
| version
| engine
| generator
| output
| bind
| compact
deriving DecidableEq, Repr

namespace Switch

/- All options. -/
def all : List Switch :=
  [.verbose, .quiet, .log, .logFormat, .directory, .help, .version,
    .engine, .generator, .output, .bind, .compact]

/- The name of an option after two dashes. -/
def long : Switch → String
| .verbose => "verbose"
| .quiet => "quiet"
| .log => "log"
| .logFormat => "log-format"
| .directory => "directory"
| .help => "help"
| .version => "version"
| .engine => "engine"
| .generator => "generator"
| .output => "output"
| .bind => "bind"
| .compact => "compact"

/- The letter of an option after one dash. -/
def short? : Switch → Option Char
| .verbose => some 'v'
| .quiet => some 'q'
| .directory => some 'C'
| .help => some 'h'
| .version => some 'V'
| .engine => some 'e'
| .generator => some 'g'
| .output => some 'o'
| .bind => some 'b'
| _ => none

/- Whether an option is known, after a command or before any. -/
def known
    (command : Option CommandName) :
    Switch → Bool
| .version => command.isNone
| .engine => command == some .compile || command == some .render
| .generator => command == some .compile
| .output =>
    command == some .compile || command == some .encode
      || command == some .decode
| .bind => command == some .render
| .compact => command == some .decode
| _ => true

/- Whether an option has a value. -/
def takesValue : Switch → Bool
| .log | .logFormat | .directory | .engine | .generator | .output
| .bind => true
| _ => false

/- Whether an option may be given more than once. -/
def repeats : Switch → Bool
| .verbose | .bind => true
| _ => false

/- Whether an option admits a value; a path is never empty. -/
def admits
    (switch : Switch)
    (value : String) : Bool :=
  match switch with
  | .log =>
      ["error", "warn", "info", "debug", "trace"].contains value
  | .logFormat => ["pretty", "json"].contains value
  | .directory | .engine | .output => value != ""
  | _ => true

end Switch

------------------------------------------------------------
-- Arguments
------------------------------------------------------------

/- Why a command line cannot be understood. -/
inductive UsageError where
| unknownOption (name : String)
| missingValue (switch : Switch)
| unexpectedValue (switch : Switch)
| repeated (switch : Switch)
| invalidValue (switch : Switch) (value : String)
| unexpectedWord (word : String)
| unknownCommand (name : String)
| missingCommand
| missingInput
| missingOutput
deriving DecidableEq, Repr

/- The wording of a usage error. -/
def UsageError.message : UsageError → String
| .unknownOption name => "unexpected argument '" ++ name ++ "'"
| .missingValue switch => "a value is required for '--" ++ switch.long ++ "'"
| .unexpectedValue switch => "no value is expected for '--" ++ switch.long ++ "'"
| .repeated switch => "'--" ++ switch.long ++ "' cannot be used multiple times"
| .invalidValue switch value =>
    "invalid value '" ++ value ++ "' for '--" ++ switch.long ++ "'"
| .unexpectedWord word => "unexpected argument '" ++ word ++ "'"
| .unknownCommand name => "unrecognized subcommand '" ++ name ++ "'"
| .missingCommand => "a subcommand is required"
| .missingInput => "an input is required"
| .missingOutput => "an output is required"

/- Why reading arguments ends before all are read. -/
inductive Stop where
| help
| version
| usage (error : UsageError)
deriving DecidableEq, Repr

/- Options and words that were given, in order. -/
structure Given where
  flags : List Switch
  values : List (Switch × String)
  words : List String
deriving DecidableEq, Repr

namespace Given

/- Nothing was given. -/
def empty : Given :=
  ⟨[], [], []⟩

/- Whether an option was given. -/
def has
    (given : Given)
    (switch : Switch) : Bool :=
  given.flags.contains switch
    || given.values.any fun entry => entry.1 == switch

/- The values of an option, in order. -/
def valuesOf
    (given : Given)
    (switch : Switch) : List String :=
  (given.values.filter fun entry => entry.1 == switch).map Prod.snd

/- The value of an option. -/
def value?
    (given : Given)
    (switch : Switch) : Option String :=
  (given.valuesOf switch).head?

/- An option without a value. -/
def addFlag
    (given : Given)
    (switch : Switch) : Except Stop Given :=
  if switch = .help then .error .help
  else if switch = .version then .error .version
  else if given.has switch ∧ !switch.repeats then
    .error (.usage (.repeated switch))
  else .ok { given with flags := given.flags ++ [switch] }

/- An option with its value. -/
def addValue
    (given : Given)
    (switch : Switch)
    (value : String) : Except Stop Given :=
  if given.has switch ∧ !switch.repeats then
    .error (.usage (.repeated switch))
  else if switch.admits value then
    .ok { given with values := given.values ++ [(switch, value)] }
  else .error (.usage (.invalidValue switch value))

/- A word; each command has one path as input, or none. -/
def addWord
    (command : CommandName)
    (given : Given)
    (word : String) : Except Stop Given :=
  if command = .stages ∨ !given.words.isEmpty then
    .error (.usage (.unexpectedWord word))
  else if word = "" then .error (.usage .missingInput)
  else .ok { given with words := given.words ++ [word] }

/- All words that follow. -/
def addWords
    (command : CommandName) :
    Given → List String → Except Stop Given
| given, [] => .ok given
| given, word :: rest =>
    (given.addWord command word).bind fun given =>
      addWords command given rest

end Given

------------------------------------------------------------
-- Reading Options
------------------------------------------------------------

/- What was given, and an option that waits for its value. -/
abbrev Progress := Except Stop (Given × Option Switch)

/-
  Read letters after one dash.  The rest of them is the value
  of the first option that takes one.
-/
def readLetters
    (command : Option CommandName) :
    Given → List Char → Progress
| given, [] => .ok (given, none)
| given, c :: rest =>
    match Switch.all.find? fun switch =>
        switch.known command && switch.short? == some c with
    | none => .error (.usage (.unknownOption (String.ofList ['-', c])))
    | some switch =>
        if switch.takesValue then
          match rest with
          | [] => .ok (given, some switch)
          | '=' :: value =>
              (given.addValue switch (String.ofList value)).map (·, none)
          | value =>
              (given.addValue switch (String.ofList value)).map (·, none)
        else
          (given.addFlag switch).bind fun given =>
            readLetters command given rest

/- Read a name after two dashes, perhaps with a value. -/
def readLong
    (command : Option CommandName)
    (given : Given)
    (body : List Char) : Progress :=
  let name := String.ofList (body.takeWhile (· != '='))
  let attached := body.dropWhile (· != '=')
  match Switch.all.find? fun switch =>
      switch.known command && switch.long == name with
  | none => .error (.usage (.unknownOption ("--" ++ name)))
  | some switch =>
      match switch.takesValue, attached with
      | true, [] => .ok (given, some switch)
      | true, _ :: value =>
          (given.addValue switch (String.ofList value)).map (·, none)
      | false, [] => (given.addFlag switch).map (·, none)
      | false, _ :: _ => .error (.usage (.unexpectedValue switch))

/- Where arguments are read: before a command, or after one. -/
inductive Parsed where
| done (given : Given)
| command (given : Given) (name : String) (rest : List String)
deriving DecidableEq, Repr

/-
  Read arguments.  Two dashes end the options, a single dash
  is a word, and a word before any command is the name of
  one.  An option may wait for its value, which is no option.
-/
def readArgs
    (command : Option CommandName) :
    (waiting : Option Switch) → Given → List String → Except Stop Parsed
| none, given, [] => .ok (.done given)
| some switch, _, [] => .error (.usage (.missingValue switch))
| waiting, given, arg :: rest =>
    match waiting, arg.toList with
    | some switch, '-' :: _ :: _ =>
        .error (.usage (.missingValue switch))
    | some switch, _ =>
        (given.addValue switch arg).bind fun given =>
          readArgs command none given rest
    | none, ['-', '-'] =>
        match command, rest with
        | some command, _ => (given.addWords command rest).map .done
        | none, [] => .ok (.done given)
        | none, word :: _ => .error (.usage (.unexpectedWord word))
    | none, '-' :: '-' :: body =>
        (readLong command given body).bind fun (given, waiting) =>
          readArgs command waiting given rest
    | none, '-' :: c :: letters =>
        (readLetters command given (c :: letters)).bind
          fun (given, waiting) => readArgs command waiting given rest
    | none, _ =>
        match command with
        | none => .ok (.command given arg rest)
        | some command =>
            (given.addWord command arg).bind fun given =>
              readArgs (some command) none given rest

------------------------------------------------------------
-- Invocations
------------------------------------------------------------

/- A command and the folder that it runs in. -/
structure Invocation where
  directory : Option String
  command : Command
deriving DecidableEq, Repr

/- The command that the arguments after its name ask for. -/
def toCommand
    (name : CommandName)
    (given : Given) : Except UsageError Command :=
  match name, given.words with
  | .stages, _ => .ok .stages
  | _, [] => .error .missingInput
  | .compile, input :: _ =>
      .ok (.compile input (given.value? .engine)
        (given.value? .generator) (given.value? .output))
  | .render, input :: _ =>
      .ok (.render input (given.value? .engine) (given.valuesOf .bind))
  | .encode, input :: _ =>
      match given.value? .output with
      | some output => .ok (.encode input output)
      | none => .error .missingOutput
  | .decode, input :: _ =>
      .ok (.decode input (given.value? .output) (given.has .compact))

/- The topics that help can be asked for. -/
def helpTopic : List String → Except Stop Invocation
| [] => .error .help
| [name] =>
    if (CommandName.ofString? name).isSome ∨ name = "help" then
      .error .help
    else .error (.usage (.unknownCommand name))
| _ :: name :: _ => .error (.usage (.unknownCommand name))

/-
  What a command line asks for.  An option of the program
  that stands on both sides of the command counts after it.
-/
def parse (args : List String) : Except Stop Invocation :=
  (readArgs none none .empty args).bind fun
    | .done _ => .error (.usage .missingCommand)
    | .command before name rest =>
        if name = "help" then helpTopic rest
        else
          match CommandName.ofString? name with
          | none => .error (.usage (.unknownCommand name))
          | some command =>
              (readArgs (some command) none .empty rest).bind fun
                | .command _ name _ =>
                    .error (.usage (.unexpectedWord name))
                | .done after =>
                    match toCommand command after with
                    | .error error => .error (.usage error)
                    | .ok command =>
                        .ok
                          ⟨(after.value? .directory).or
                            (before.value? .directory), command⟩

------------------------------------------------------------
-- Running
------------------------------------------------------------

/- The version of the program. -/
def versionText : String :=
  "wf 0.1.0\n"

/- A summary of the command line. -/
def helpText : String :=
  "Usage: wf [OPTIONS] <COMMAND>\n\n"
    ++ "Commands:\n"
    ++ "  compile  Compile a tree to a program through the declared engine\n"
    ++ "  render   Run the declared filters and render the tree directly\n"
    ++ "  encode   Convert a JSON tree to the binary form\n"
    ++ "  decode   Convert a binary tree to JSON\n"
    ++ "  stages   List the filters and generators an engine file can declare\n"

/- The status of the program, what it printed and what it left. -/
structure Exit where
  status : Nat
  printed : List UInt8
  directory : Directory

/- Run an invocation in a directory. -/
def Invocation.run
    (dir : Directory)
    (invocation : Invocation) : Command.Outcome :=
  match invocation.directory with
  | none => invocation.command.run dir (.below [])
  | some path =>
      match dir.enter (.below []) path with
      | .ok here => invocation.command.run dir here
      | .error fault => .failed dir (.io path fault.message)

/- Run the program in a directory. -/
def run
    (dir : Directory)
    (args : List String) : Exit :=
  match parse args with
  | .error .help => ⟨0, Utf8.encode helpText, dir⟩
  | .error .version => ⟨0, Utf8.encode versionText, dir⟩
  | .error (.usage _) => ⟨2, [], dir⟩
  | .ok invocation =>
      let outcome := invocation.run dir
      let status :=
        match outcome.result with
        | .ok _ => 0
        | .error _ => 1
      ⟨status, outcome.printed, outcome.directory⟩

end CommandLine

end TemplateTree
