/-!
# The host of a run

What a run needs from the system it runs on: files, servers, other programs, the output
and the time of day. Every answer of the system is a value, so a run can also be followed
on a disk in memory.
-/

namespace TypedClient.Command

/-- A refusal of the system: its number, and what the system calls it. -/
structure SystemError where
  code : Nat
  text : String
  deriving DecidableEq, Repr

namespace SystemError

def message (error : SystemError) : String :=
  error.text ++ " (os error " ++ toString error.code ++ ")"

def noSuchFile : SystemError := ⟨2, "No such file or directory"⟩
def permissionDenied : SystemError := ⟨13, "Permission denied"⟩
def fileExists : SystemError := ⟨17, "File exists"⟩
def noSuchDevice : SystemError := ⟨19, "No such device"⟩
def notADirectory : SystemError := ⟨20, "Not a directory"⟩
def isADirectory : SystemError := ⟨21, "Is a directory"⟩
def notSupported : SystemError := ⟨95, "Operation not supported"⟩

def known : List SystemError :=
  [noSuchFile, permissionDenied, fileExists, noSuchDevice, notADirectory, isADirectory,
    notSupported]

/-- The error of a number, with the given text unless the number is known. -/
def ofCode (code : Nat) (text : String) : SystemError :=
  (known.find? fun error => error.code == code).getD ⟨code, text⟩

end SystemError

/-- How a program ended, and what it wrote. -/
structure ProgramResult where
  succeeded : Bool
  output : List UInt8
  errors : List UInt8
  deriving DecidableEq, Repr

/-- How far a request gets that brings no document. -/
inductive RequestStage where
  | connection
  | status
  | body
  deriving DecidableEq, Repr

/-- Why a request brings no document, with the causes that the transport tells. -/
structure RequestFault where
  stage : RequestStage
  causes : List String
  deriving DecidableEq, Repr

/-- What a server sends, and the type it announces if that is text. -/
structure Reply where
  contentType : Option String
  body : List UInt8
  deriving DecidableEq, Repr

/-- The services of a system, in the monad of its effects. -/
structure Host (m : Type → Type) where
  readFile : (path : String) → m (Except SystemError (List UInt8))
  fetch : (address : String) → m (Except RequestFault Reply)
  /-- Creates a directory and those that it lies in, as far as they are missing. -/
  createDirectories : (path : String) → m (Except SystemError Unit)
  isPresent : (path : String) → m (Except SystemError Bool)
  writeFile : (path contents : String) → m (Except SystemError Unit)
  runProgram :
    (program : String) → (arguments : List String) → (input : String) →
      m (Except SystemError ProgramResult)
  printLine : (line : String) → m Unit
  printErrorLine : (line : String) → m Unit
  /-- The time of day in brackets. -/
  timestamp : m String

end TypedClient.Command
