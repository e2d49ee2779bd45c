import Clausal.Command.Basic

/-!
# The program

Reads the files of the command that its arguments name, runs it and prints what it says.
-/

open Clausal

/-- The text of a file, or why there is none. -/
def readTextFile (path : String) : IO (Except ReadError String) := do
  try
    return .ok (← IO.FS.readFile path)
  catch
    | .noFileOrDirectory .. => return .error .missing
    | .permissionDenied .. => return .error .noPermission
    | .inappropriateType _ 21 _ => return .error .isDirectory
    | .inappropriateType .. => return .error .notDirectory
    | .invalidArgument .. => return .error .nameTooLong
    | .userError _ => return .error .notText
    | e => throw e

def usage : String :=
  "check REGISTRY | render --registry FILE --dialect NAME --rule FILE [--view IDS] " ++
    "[--library FILE] [--config FILE] | facts --registry FILE --dialect NAME --records FILE " ++
    "[--config FILE] | dialects"

/-- The exit code is 0 for success, 1 for a failure of the command and 2 for wrong arguments. -/
def main (args : List String) : IO UInt32 := do
  match Command.ofArguments args with
  | .error .help =>
    IO.println usage
    return 0
  | .error .invalid =>
    IO.eprintln usage
    return 2
  | .ok command =>
    let mut texts : List (String × Except ReadError String) := []
    for path in command.paths do
      texts := (path, ← readTextFile path) :: texts
    match command.run fun path => (texts.lookup path).getD (.error .missing) with
    | .ok printed =>
      IO.print printed.output
      for note in printed.notes do IO.eprintln note
      return 0
    | .error report =>
      for line in report.lines fun _ => true do IO.eprintln line
      return 1
