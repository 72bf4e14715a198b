/-
# The command on the machine

Reads files and the clock, prints what a run leaves behind, and ends with its
status. Nothing is decided here.
-/
import Calculator.Command.Run
import Calculator.Text.Duration

namespace Calculator.Command

/-- The number of an error of the machine, which some calls give with a minus sign. -/
def errorNumber (code : UInt32) : UInt32 := if code < 0x80000000 then code else 0 - code

/-- The words of the machine for an error with a code. -/
def systemWords (code : UInt32) (details : String) : String :=
  details ++ " (os error " ++ Text.decimal (errorNumber code).toNat ++ ")"

/-- The words for an error of the machine. -/
def readFault : IO.Error → String
  | .noFileOrDirectory .. => notFound
  | .inappropriateType _ code _ => if errorNumber code = 20 then notFolder else isFolder
  | .permissionDenied _ code details => systemWords code details
  | .invalidArgument _ code details => systemWords code details
  | .resourceExhausted _ code details => systemWords code details
  | .noSuchThing _ code details => systemWords code details
  | .otherError code details => systemWords code details
  | error => toString error

/-- Files and time of the machine. -/
def machine : System IO where
  read path := do
    try return .ok (← IO.FS.readBinFile path)
    catch error => return .error (readFault error)
  stopwatch := do
    let start ← IO.monoNanosNow
    return do return Text.duration ((← IO.monoNanosNow) - start)

end Calculator.Command

/-- Runs the command with the arguments of the process. -/
def main (args : List String) : IO UInt32 := do
  let transcript ← Calculator.Command.run Calculator.Command.machine args
  IO.print transcript.stdout
  IO.eprint transcript.stderr
  return transcript.status.toUInt32
