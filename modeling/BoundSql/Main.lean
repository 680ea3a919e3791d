import BoundSql.CommandLine.Run

/-!
# The executable

Reads files and prints what the program leaves behind.
-/

namespace BoundSql.CommandLine

/-- Why a file cannot be read, with the number of the system's error. -/
def readFailure (e : IO.Error) : String :=
  let numbered := fun (code : UInt32) (details : String) => s!"{details} (os error {code})"
  match e with
  | .noFileOrDirectory _ code details | .interrupted _ code details
  | .permissionDenied _ code details | .inappropriateType _ code details
  | .invalidArgument _ code details | .noSuchThing _ code details
  | .resourceExhausted _ code details | .alreadyExists _ code details
  | .otherError code details | .resourceBusy code details | .resourceVanished code details
  | .unsupportedOperation code details | .hardwareFault code details
  | .unsatisfiedConstraints code details | .illegalOperation code details
  | .protocolError code details | .timeExpired code details => numbered code details
  | e => toString e

/-- The text of a file. -/
def readText (path : String) : IO (Except String String) := do
  try
    match String.fromUTF8? (← IO.FS.readBinFile path) with
    | some text => return .ok text
    | none => return .error "stream did not contain valid UTF-8"
  catch e =>
    return .error (readFailure e)

end BoundSql.CommandLine

open BoundSql

/-- Runs the program. -/
def main (arguments : List String) : IO UInt32 := do
  let outcome ← CommandLine.run CommandLine.readText arguments
  IO.print outcome.stdout
  unless outcome.stderr.isEmpty do
    IO.eprintln outcome.stderr
  return outcome.exitCode.toUInt32
