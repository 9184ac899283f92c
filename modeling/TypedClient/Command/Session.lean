import TypedClient.Command.Disk
import TypedClient.Text.Utf8

/-!
# Runs in memory

A host without a system: its files lie on a disk in memory, its servers and programs are
functions, its clock stands still, and what is printed is kept line by line.
-/

namespace TypedClient.Command

open Text

/-- A program that answers the same to the same arguments and input. -/
abbrev Program : Type := List String → String → ProgramResult

/-- Servers that answer the same to the same address. -/
abbrev Network : Type := String → Except RequestFault Reply

/-- No server can be reached. -/
def Network.none : Network :=
  fun _ => .error ⟨.connection, []⟩

structure Session where
  disk : Disk
  network : Network := .none
  programs : List (Location × Program)
  timestamp : String
  printed : List String
  printedErrors : List String

namespace Session

/-- Runs the program at a path. A name without a slash names no program, and an entry
that is no program cannot be run. -/
def runProgram (session : Session) (program : String) (arguments : List String)
    (input : String) : Except SystemError ProgramResult := do
  if !program.toList.contains '/' then
    .error .noSuchFile
  else
    let location ← session.disk.locate program
    match session.programs.lookup location, session.disk.find? location with
    | some run, _ => .ok (run arguments input)
    | none, some _ => .error .permissionDenied
    | none, none => .error .noSuchFile

/-- Changes the disk, unless that is refused. -/
def update (change : Disk → Except SystemError Disk) (session : Session) :
    Except SystemError Unit × Session :=
  match change session.disk with
  | .ok disk => (.ok (), { session with disk })
  | .error error => (.error error, session)

def host : Host (StateM Session) where
  readFile path := fun session => (session.disk.readFile path, session)
  fetch address := fun session => (session.network address, session)
  createDirectories path := update fun disk => disk.createDirectories path
  isPresent path := fun session => (session.disk.isPresent path, session)
  writeFile path contents := update fun disk => disk.writeFile path (Utf8.encode contents)
  runProgram program arguments input := fun session =>
    (session.runProgram program arguments input, session)
  printLine line := fun session =>
    ((), { session with printed := session.printed ++ [line] })
  printErrorLine line := fun session =>
    ((), { session with printedErrors := session.printedErrors ++ [line] })
  timestamp := fun session => (session.timestamp, session)

/-- The text that the lines make on the screen. -/
def textOfLines (lines : List String) : String :=
  String.join (lines.map fun line => line ++ "\n")

/-- The session with nothing printed. -/
def cleared (session : Session) : Session :=
  { session with printed := [], printedErrors := [] }

end Session

end TypedClient.Command
