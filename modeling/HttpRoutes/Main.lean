import HttpRoutes.CommandLine.Message

/-!
# The program

Reads the settings and the file of rules that a command asks for, runs the
command and writes what comes of it.
-/

namespace HttpRoutes

def readEnvironment : IO Environment := do
  let entries ← TableSettings.names.filterMapM fun name => do
    let value ← IO.getEnv name
    pure (value.map fun value => (name, value))
  pure ⟨entries⟩

def readTextFile (path : String) : IO (Except FileError String) := do
  try
    let bytes ← IO.FS.readBinFile path
    pure (textOfFile bytes.toList)
  catch error =>
    match error with
    | .noFileOrDirectory .. => pure (.error .notFound)
    | .inappropriateType _ 21 _ => pure (.error .isDirectory)
    | .inappropriateType .. => pure (.error .notDirectory)
    | error => pure (.error (.other s!"{error}"))

/-- Run the command that the arguments ask for; the result is the exit code. -/
def runProgram (args : List String) : IO UInt32 := do
  match CommandLine.readCommand args with
  | .error .help =>
    IO.print usageText
    pure 0
  | .error error =>
    IO.eprint (error.message ++ usageText)
    pure 2
  | .ok command =>
    let settings ← readEnvironment
    let content ←
      match command.rules? with
      | some path => readTextFile path
      | none => pure (.error .notFound)
    match command.run (.ofEnvironment settings) fun _ => content with
    | .ok output =>
      IO.print output
      pure 0
    | .error error =>
      IO.eprint error.report
      pure 1

end HttpRoutes

def main (args : List String) : IO UInt32 := HttpRoutes.runProgram args
