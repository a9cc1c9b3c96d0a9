import GraphLowering.CommandLine

/-!
# The program

Reads the document that the command line asks for and prints the report.
-/

namespace GraphLowering

/-- A failure of the operating system. Its number comes as a word and may have been negated. -/
def numberedFailure (code : UInt32) (details : String) : String :=
  let number := code.toInt32.toInt.natAbs
  match ReadFault.ofNumber? number with
  | some fault => fault.message
  | none => s!"{details} (os error {number})"

/-- Why a file could not be read. -/
def readFailure : IO.Error → String
  | .otherError code details | .resourceBusy code details | .resourceVanished code details
  | .unsupportedOperation code details | .hardwareFault code details
  | .unsatisfiedConstraints code details | .illegalOperation code details
  | .protocolError code details | .timeExpired code details | .interrupted _ code details
  | .noFileOrDirectory _ code details | .alreadyExists _ code details
  | .invalidArgument _ code details | .permissionDenied _ code details
  | .resourceExhausted _ code details | .inappropriateType _ code details
  | .noSuchThing _ code details => numberedFailure code details
  | .unexpectedEof => "unexpected end of file"
  | .userError _ => "stream did not contain valid UTF-8"

/-- The text of a file, or why it could not be read. -/
def readDocument (path : String) : IO (Except String String) := do
  try
    return .ok (← IO.FS.readFile path)
  catch e =>
    return .error (readFailure e)

end GraphLowering

open GraphLowering

/-- Runs a command line. -/
def main (words : List String) : IO UInt32 := do
  let command := Command.ofWords words
  let document ← match command.path? with
    | some path => readDocument path
    | none => pure (.ok "")
  let report := command.report document
  IO.print report.out
  for line in report.err do
    IO.eprintln line
  return report.status.toUInt32
