import Lookahead.CommandLine

/-!
The program: reads the file that the command line names, prints, and ends with a status.
-/

namespace Lookahead.CommandLine

/-- The number of an error comes with either sign. -/
def ReadFailure.ofError : IO.Error → ReadFailure
  | .noFileOrDirectory .. => .noSuchFile
  | .inappropriateType _ code _ =>
    if code = 21 ∨ -code = 21 then .isDirectory else .notDirectory
  | error@(.invalidArgument _ code _) =>
    if code = 36 ∨ -code = 36 then .nameTooLong else .other (toString error)
  | .permissionDenied .. => .other "Permission denied (os error 13)"
  | error => .other (toString error)

def readText (path : String) : IO (Except ReadFailure String) := do
  try
    match String.fromUTF8? (← IO.FS.readBinFile path) with
    | some text => return .ok text
    | none => return .error .notText
  catch error => return .error (.ofError error)

end Lookahead.CommandLine

open Lookahead.CommandLine in
/-- A file is read only if the command needs one. -/
def main (words : List String) : IO UInt32 := do
  let command := parse words
  let document ← match command with
    | .print _ _ (some path) => readText path
    | _ => pure (.error .noSuchFile)
  match execute? (fun _ => document) command with
  | none => return 101
  | some outcome =>
    (← IO.getStdout).putStr outcome.stdout
    (← IO.getStderr).putStr outcome.stderr
    return outcome.status.toUInt32
