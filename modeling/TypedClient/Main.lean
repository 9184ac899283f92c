import Std.Time.Zoned
import TypedClient.Command.Run

/-!
# The program

The host of a run on a real system, and the entry point. There is no transport here and
other programs cannot be started, so documents are files and only the built-in formatter
is available.
-/

namespace TypedClient.Command

/-- The error of a number that may have been reported as its negative. -/
def SystemError.ofWord (code : UInt32) (text : String) : SystemError :=
  ofCode (min code.toNat (-code).toNat) text

/-- What the system says about a failed action. -/
def SystemError.ofFailure : IO.Error → SystemError
  | .alreadyExists _ code text => ofWord code text
  | .otherError code text => ofWord code text
  | .resourceBusy code text => ofWord code text
  | .resourceVanished code text => ofWord code text
  | .unsupportedOperation code text => ofWord code text
  | .hardwareFault code text => ofWord code text
  | .unsatisfiedConstraints code text => ofWord code text
  | .illegalOperation code text => ofWord code text
  | .protocolError code text => ofWord code text
  | .timeExpired code text => ofWord code text
  | .interrupted _ code text => ofWord code text
  | .noFileOrDirectory _ code text => ofWord code text
  | .invalidArgument _ code text => ofWord code text
  | .permissionDenied _ code text => ofWord code text
  | .resourceExhausted _ code text => ofWord code text
  | .inappropriateType _ code text => ofWord code text
  | .noSuchThing _ code text => ofWord code text
  | .unexpectedEof => ⟨0, "unexpected end of file"⟩
  | .userError text => ⟨0, text⟩

/-- An action with the refusal of the system as a value. -/
def attempt {α : Type} (action : IO α) : IO (Except SystemError α) := do
  try
    return .ok (← action)
  catch failure =>
    return .error (.ofFailure failure)

/-- Creates a directory. Only where it or one above it is missing, or where it seems to
be there already, are the directories above looked at. -/
def createDirectories (path : String) : IO (Except SystemError Unit) := do
  match ← attempt (IO.FS.createDir path) with
  | .ok () => return .ok ()
  | .error error =>
      if error.code = SystemError.noSuchFile.code || error.code = SystemError.fileExists.code then
        attempt (IO.FS.createDirAll path)
      else
        return .error error

/-- Whether there is something at a path, be it readable or not. -/
def isPresent (path : String) : IO (Except SystemError Bool) := do
  match ← attempt (IO.FS.readBinFile path) with
  | .ok _ => return .ok true
  | .error error =>
      if error.code = SystemError.noSuchFile.code then
        return .ok false
      else if error.code = SystemError.notADirectory.code then
        return .error error
      else
        return .ok true

/-- A number of two digits. -/
def twoDigits (number : Int) : String :=
  if number < 10 then "0" ++ toString number else toString number

/-- The time of day in brackets. -/
def timestamp : IO String := do
  let now ← Std.Time.PlainDateTime.now
  let parts := [now.hour.toInt, now.minute.toInt, now.second.toInt]
  return "[" ++ String.intercalate ":" (parts.map twoDigits) ++ "]"

/-- The system that the program runs on. -/
def systemHost : Host IO where
  readFile path := attempt do return (← IO.FS.readBinFile path).toList
  fetch _ := return .error ⟨.connection, []⟩
  createDirectories := createDirectories
  isPresent := isPresent
  writeFile path contents := attempt (IO.FS.writeFile path contents)
  runProgram _ _ _ := return .error .notSupported
  printLine line := IO.println line
  printErrorLine line := IO.eprintln line
  timestamp := timestamp

def systemSurroundings : IO Surroundings := do
  return {
    isTerminal := ← (← IO.getStdout).isTty
    refusesColors := (← IO.getEnv "NO_COLOR").isSome
    terminalColors := ← IO.getEnv "COLORFGBG" }

end TypedClient.Command

def main (arguments : List String) : IO UInt32 := do
  let surroundings ← TypedClient.Command.systemSurroundings
  TypedClient.Command.runAndReport TypedClient.Command.systemHost surroundings arguments
