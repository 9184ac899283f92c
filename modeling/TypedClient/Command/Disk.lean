import TypedClient.Command.Host
import TypedClient.Keyed
import TypedClient.Text.Split

/-!
# A disk in memory

Files and directories by their place below the root directory. A path is followed part
by part, so every part but the last has to name a directory that is there.
-/

namespace TypedClient.Command

open Text

/-- The names that lead from the root directory to an entry. -/
abbrev Location : Type := List String

inductive Entry where
  | file (contents : List UInt8)
  | directory
  deriving DecidableEq, Repr

/-- The entries of a disk, and the directory that relative paths start from. The root
directory needs no entry. -/
structure Disk where
  entries : List (Location × Entry)
  workingDirectory : Location
  deriving DecidableEq, Repr

namespace Disk

def find? (disk : Disk) (location : Location) : Option Entry :=
  if location.isEmpty then some .directory else disk.entries.lookup location

def put (disk : Disk) (location : Location) (entry : Entry) : Disk :=
  { disk with entries := Keyed.put Prod.fst (location, entry) disk.entries }

/-- Putting an entry changes nothing at any other place. -/
theorem find?_put (disk : Disk) (location other : Location) (entry : Entry)
    (below : location ≠ []) :
    (disk.put location entry).find? other =
      if other = location then some entry else disk.find? other := by
  unfold find? put
  by_cases atRoot : other = []
  · subst atRoot
    simp [Ne.symm below]
  · simpa [atRoot] using Keyed.lookup_put location other entry disk.entries

/-- The parts of a path between its slashes. -/
def parts (path : String) : List String :=
  (splitAtChar '/' path.toList).map String.ofList

/-- Where the parts of a path start. -/
def origin (disk : Disk) (path : String) : Location :=
  if beginsWith "/" path then [] else disk.workingDirectory

/-- The place that a part leads to from another place. -/
def step (place : Location) (part : String) : Location :=
  if part == "" || part == "." then place
  else if part == ".." then place.dropLast
  else place ++ [part]

/-- Follows the parts of a path. There need not be anything at the end. -/
def follow (disk : Disk) (place : Location) : List String → Except SystemError Location
  | [] => .ok place
  | part :: rest =>
      match disk.find? place with
      | none => .error .noSuchFile
      | some (.file _) => .error .notADirectory
      | some .directory => disk.follow (step place part) rest

/-- The place that a path names. -/
def locate (disk : Disk) (path : String) : Except SystemError Location :=
  if path.isEmpty then .error .noSuchFile
  else disk.follow (disk.origin path) (parts path)

/-- The contents of a file. A directory has none. -/
def readFile (disk : Disk) (path : String) : Except SystemError (List UInt8) := do
  match disk.find? (← disk.locate path) with
  | none => .error .noSuchFile
  | some .directory => .error .noSuchDevice
  | some (.file contents) => .ok contents

/-- Whether there is an entry at a path. -/
def isPresent (disk : Disk) (path : String) : Except SystemError Bool :=
  match disk.locate path with
  | .ok location => .ok (disk.find? location).isSome
  | .error error => if error = .noSuchFile then .ok false else .error error

/-- The disk with a file of the given contents at a path, new or replaced. -/
def writeFile (disk : Disk) (path : String) (contents : List UInt8) :
    Except SystemError Disk := do
  let location ← disk.locate path
  match disk.find? location with
  | some .directory => .error .isADirectory
  | _ => .ok (disk.put location (.file contents))

/-- The disk with the directories along the parts of a path. -/
def createAlong (disk : Disk) (place : Location) : List String → Except SystemError Disk
  | [] => .ok disk
  | part :: rest =>
      let next := step place part
      match disk.find? next with
      | some .directory => disk.createAlong next rest
      | some (.file _) => .error (if rest.isEmpty then .fileExists else .notADirectory)
      | none => (disk.put next .directory).createAlong next rest

/-- The disk with a directory at a path, and with those that it lies in. -/
def createDirectories (disk : Disk) (path : String) : Except SystemError Disk :=
  disk.createAlong (disk.origin path) (parts path)

end Disk

end TypedClient.Command
