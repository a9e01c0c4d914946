import DaxPlan.Command
import DaxPlan.Json.Writer

/-!
# The program

Reads the command line and the files it names, and prints the report. The exit code is 1 if something failed and 2 if the
arguments are wrong.
-/

namespace DaxPlan

/-- The number of the failure to open a file with a name that is too long, which may come with its sign changed. -/
def isNameTooLong (code : UInt32) : Bool := code == 36 || code + 36 == 0

/-- Reads a file as text. The failure to read a directory names no file; a path that goes on after a file names it. -/
def readTextFile (path : String) : IO (Except ReadFailure String) := do
  try
    return .ok (← IO.FS.readFile path)
  catch e =>
    match e with
    | .noFileOrDirectory .. => return .error .notFound
    | .inappropriateType none .. => return .error .isDirectory
    | .inappropriateType (some _) .. => return .error .notDirectory
    | .invalidArgument _ code _ => return .error (if isNameTooLong code then .nameTooLong else .other (toString e))
    | e => return .error (.other (toString e))

end DaxPlan

open DaxPlan in
/-- Runs the command that the arguments ask for. -/
def main (args : List String) : IO UInt32 := do
  match Command.parse args (← IO.getEnv "VQP_SETTINGS") with
  | .error .help =>
    IO.print Command.usage
    return 0
  | .error .usage =>
    IO.eprint Command.usage
    return 2
  | .ok invocation =>
    match ← (Command.run readTextFile invocation).run with
    | .error failure =>
      IO.eprintln ("Error: " ++ failure.message)
      return 1
    | .ok report =>
      IO.print (if invocation.json then report.toJson.toText ++ "\n" else report.text)
      return 0
