import TemplateTree.Command.Line
import TemplateTree.Command.Report

/-
  The program.

  Key definitions include:
    * `Terminal.execute`
    * `main`

  The steps of a command are taken one by one, and the system
  answers each of them.
-/

------------------------------------------------------------
-- Files
------------------------------------------------------------

namespace TemplateTree

namespace Terminal

/-
  Whether a file should have been a folder, or the reverse.
  Systems give the code of the first case with either sign.
-/
def typeFault (code : UInt32) : Directory.Fault :=
  if code = 20 ∨ code + 20 = 0 then .notFolder else .isFolder

/- What the system says about a failure. -/
def systemMessage : IO.Error → String
| .noFileOrDirectory _ _ _ => Directory.Fault.missing.message
| .inappropriateType _ code _ => (typeFault code).message
| .otherError code details =>
    details ++ " (os error " ++ toString code ++ ")"
| error => toString error

/- A path, seen from a folder. -/
def located
    (folder : Option String)
    (path : String) : String :=
  match folder with
  | some base =>
      if Path.isAbsolute path then path else base ++ "/" ++ path
  | none => path

/- What came of asking the system for something. -/
def attempt
    {α : Type}
    (ask : IO α) : IO (Except String α) := do
  try
    return .ok (← ask)
  catch error =>
    return .error (systemMessage error)

/- The bytes of a file. -/
def readFile (path : String) : IO (List UInt8) := do
  return (← IO.FS.readBinFile path).toList

/- Print some bytes. -/
def printBytes (bytes : List UInt8) : IO Unit := do
  let out ← IO.getStdout
  out.write ⟨bytes.toArray⟩
  out.flush

------------------------------------------------------------
-- Commands
------------------------------------------------------------

/- Take all steps of an action in a folder. -/
def execute
    (folder : Option String) :
    Action Unit → IO (Except CommandError Unit)
| .done _ => return .ok ()
| .fail error => return .error error
| .read path next => do
    let answer ← attempt (readFile (located folder path))
    execute folder (next answer)
| .write path bytes next => do
    let file := located folder path
    let answer ← attempt (IO.FS.writeBinFile file ⟨bytes.toArray⟩)
    execute folder (next answer)
| .print bytes next => do
    let answer ← attempt (printBytes bytes)
    execute folder (next answer)

/- Report an error and give the status for it. -/
def complain (error : CommandError) : IO UInt32 := do
  (← IO.getStderr).putStr error.report
  return 1

/- Run a command in a folder. -/
def perform
    (folder : Option String)
    (command : Command) : IO UInt32 := do
  match ← execute folder command.action with
  | .ok _ => return 0
  | .error error => complain error

/- Check that the folder of an invocation is there, and run it. -/
def invoke (invocation : CommandLine.Invocation) : IO UInt32 := do
  match invocation.directory with
  | none => perform none invocation.command
  | some folder =>
      try
        let found ← IO.FS.realPath folder
        if ← found.isDir then
          perform (some folder) invocation.command
        else
          complain (.io folder Directory.Fault.notFolder.message)
      catch error =>
        complain (.io folder (systemMessage error))

end Terminal

end TemplateTree

open TemplateTree in
/- The program: run what the command line asks for. -/
def main (args : List String) : IO UInt32 := do
  match CommandLine.parse args with
  | .error .help =>
      (← IO.getStdout).putStr CommandLine.helpText
      return 0
  | .error .version =>
      (← IO.getStdout).putStr CommandLine.versionText
      return 0
  | .error (.usage error) =>
      (← IO.getStderr).putStr ("error: " ++ error.message ++ "\n")
      return 2
  | .ok invocation => Terminal.invoke invocation
