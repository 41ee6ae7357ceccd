/-
**The command.**

The world of the command is the file system, the standard input and the variables that can hold
settings.
-/

import Schemata.CommandLine.Execution

namespace Schemata.CommandLine

/-- Why a file could not be read. -/
def failureOf : IO.Error → ReadFailure
  | .noFileOrDirectory .. => .missing
  | .inappropriateType _ code _ => if code = 21 then .directory else .notDirectory
  | .invalidArgument .. => .nameTooLong
  | .permissionDenied .. => .forbidden
  | _ => .notText

/-- Read, and answer a failure as a value. -/
def attempt (read : IO String) : IO (Except ReadFailure String) := do
  try
    let text ← read
    return .ok text
  catch error => return .error (failureOf error)

/-- The rest of a stream, behind the text that has been read. -/
partial def readStream (stream : IO.FS.Stream) (text : String) : IO String := do
  let line ← stream.getLine
  if line.isEmpty then return text else readStream stream (text ++ line)

/-- The variables that can hold settings. -/
def variableNames : List String :=
  [Settings.pathVariable, "UVO__LOGGING", "UVO__LOGGING__LEVEL", "UVO__VALIDATION",
    "UVO__VALIDATION__ERRORS_PATH", "UVO__VALIDATION__INJECTIONS_PATH", "UVO__VALIDATION__PRETTY"]

/-- The variables that are set. -/
def readVariables : IO Variables := do
  let found ← variableNames.mapM fun name => do
    return (← IO.getEnv name).map fun value => (name, value)
  return found.filterMap id

/-- The world of the command. -/
def openWorld : IO (World IO) := do
  let environment ← readVariables
  return ⟨fun path => attempt (IO.FS.readFile path),
    attempt do readStream (← IO.getStdin) "", environment⟩

/-- Show an ending. -/
def Ending.print : Ending → IO Unit
  | finished output _ => IO.print output
  | failed message => IO.eprintln ("Error: " ++ message)
  | refused .help => IO.println Refusal.help.message
  | refused refusal => IO.eprintln ("error: " ++ refusal.message)

end Schemata.CommandLine

/-- Carry out the arguments of the command. -/
def main (arguments : List String) : IO UInt32 := do
  let world ← Schemata.CommandLine.openWorld
  let ending ← Schemata.CommandLine.execute world arguments
  ending.print
  return ending.status.toUInt32
