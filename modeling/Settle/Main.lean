import Settle.Demo

/-!
# The command line

Runs the demonstration with the settings of a file, if the path of one is given.
-/

namespace Settle

open Settle.Demo

/-- The cause of a failed reading. -/
def readFailureOf : IO.Error → ReadFailure
  | .noFileOrDirectory .. => .notFound
  | .inappropriateType _ code details =>
    if code = 21 then .isDirectory
    else if code = 20 then .notDirectory
    else .other code.toNat details
  | .permissionDenied _ code details => .other code.toNat details
  | .invalidArgument _ code details => .other code.toNat details
  | .resourceExhausted _ code details => .other code.toNat details
  | .otherError code details => .other code.toNat details
  | e => .other 0 (toString e)

/-- The bytes of a file. -/
def readBytes (path : String) : IO (Except ReadFailure ByteArray) := do
  match ← (IO.FS.readBinFile path).toBaseIO with
  | .ok bytes => return .ok bytes
  | .error e => return .error (readFailureOf e)

end Settle

/-- Reads the file named by the first argument, if there is one, and plays. -/
def main (args : List String) : IO UInt32 := do
  let found ← match args with
    | [] => pure (.error .notFound)
    | path :: _ => Settle.readBytes path
  let outcome := Settle.Demo.command (fun _ => found) args
  IO.print outcome.resultText
  IO.eprint outcome.errorText
  return outcome.exitCode.toUInt32
