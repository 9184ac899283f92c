import TypedClient.Command.Disk
import TypedClient.DocumentSource

/-!
# Where paths lead

A path leads to a place by its parts alone: a disk decides only whether the place can be
reached. Below a directory, a path made of plain names leads to the place that the names
spell.
-/

namespace TypedClient

namespace Command.Disk

open Text

/-- The place that a path leads to, part by part. -/
def placeOf (disk : Disk) (path : String) : Location :=
  (parts path).foldl step (disk.origin path)

theorem follow_eq_foldl {disk : Disk} {place location : Location} {names : List String}
    (followed : disk.follow place names = .ok location) : names.foldl step place = location := by
  induction names generalizing place with
  | nil => exact Except.ok.inj followed
  | cons name rest ih =>
      unfold follow at followed
      split at followed
      · contradiction
      · contradiction
      · exact ih followed

theorem locate_eq_placeOf {disk : Disk} {path : String} {location : Location}
    (located : disk.locate path = .ok location) : disk.placeOf path = location := by
  unfold locate at located
  split at located
  · contradiction
  · exact follow_eq_foldl located

theorem placeOf_congr {disk other : Disk}
    (same : other.workingDirectory = disk.workingDirectory) (path : String) :
    other.placeOf path = disk.placeOf path := by
  rw [placeOf, placeOf, origin, origin, same]

/-- A part that names an entry of a directory. -/
def IsName (part : String) : Prop :=
  part ≠ "" ∧ part ≠ "." ∧ part ≠ ".."

theorem step_of_isName {part : String} (isName : IsName part) (place : Location) :
    step place part = place ++ [part] := by
  simp [step, isName.1, isName.2.1, isName.2.2]

theorem foldl_step_of_isName {names : List String} (areNames : ∀ name ∈ names, IsName name)
    (place : Location) : names.foldl step place = place ++ names := by
  induction names generalizing place with
  | nil => simp
  | cons name rest ih =>
      rw [List.foldl_cons, step_of_isName (areNames name List.mem_cons_self),
        ih fun other member => areNames other (List.mem_cons_of_mem name member)]
      simp

theorem parts_of_not_mem {path : String} (noSlash : '/' ∉ path.toList) : parts path = [path] := by
  rw [parts, splitAtChar_eq_splitOn, List.splitOn_eq_singleton noSlash]
  simp

theorem parts_append_slash (directory path : String) :
    parts (directory ++ "/" ++ path) = parts directory ++ parts path := by
  have slash : ("/" : String).toList = ['/'] := rfl
  rw [parts, String.toList_append, String.toList_append, slash, List.append_assoc,
    List.singleton_append, splitAtChar_eq_splitOn, List.splitOn_append_cons_self, List.map_append,
    ← splitAtChar_eq_splitOn, ← splitAtChar_eq_splitOn]
  rfl

theorem beginsWith_append {directory : String} (notEmpty : directory ≠ "") (path : String) :
    beginsWith "/" (directory ++ path) = beginsWith "/" directory := by
  have slash : ("/" : String).toList = ['/'] := rfl
  rw [beginsWith, beginsWith, String.toList_append, slash]
  cases characters : directory.toList with
  | nil => exact absurd (String.toList_eq_nil_iff.mp characters) notEmpty
  | cons c rest => simp [List.isPrefixOf]

/-- A relative path starts from the place of its directory. -/
theorem placeOf_join (disk : Disk) (directory : String) {path : String}
    (relative : beginsWith "/" path = false) :
    disk.placeOf (FilePath.join directory path) =
      (parts path).foldl step (disk.placeOf directory) := by
  have emptyPart : ∀ place, step place "" = place := fun _ => rfl
  by_cases noDirectory : directory = ""
  · subst noDirectory
    have joined : FilePath.join "" path = path := by simp [FilePath.join]
    have noParts : disk.placeOf "" = disk.workingDirectory := rfl
    rw [joined, noParts, placeOf, origin, relative]
    rfl
  · have origins : ∀ rest, disk.origin (directory ++ rest) = disk.origin directory := fun rest => by
      rw [origin, origin, beginsWith_append noDirectory]
    have isEmptyEq : directory.isEmpty = false := by simpa using noDirectory
    by_cases closed : directory.toList.getLast? = some '/'
    · -- the slash at the end of the directory gives an empty part
      obtain ⟨start, isStart⟩ := List.getLast?_eq_some_iff.mp closed
      have directoryEq : directory = String.ofList start ++ "/" := by
        apply String.toList_injective
        simp [isStart]
      have joined : FilePath.join directory path = directory ++ path := by
        simp [FilePath.join, relative, isEmptyEq, closed]
      have directoryParts : parts directory = parts (String.ofList start) ++ [""] := by
        have split := parts_append_slash (String.ofList start) ""
        rwa [String.append_empty, ← directoryEq] at split
      have joinedParts : parts (directory ++ path) = parts (String.ofList start) ++ parts path := by
        rw [directoryEq, parts_append_slash]
      rw [joined, placeOf, placeOf, origins, directoryParts, joinedParts, List.foldl_append,
        List.foldl_append]
      rfl
    · have joined : FilePath.join directory path = directory ++ "/" ++ path := by
        simp [FilePath.join, relative, isEmptyEq, closed]
      rw [joined, placeOf, placeOf, parts_append_slash, List.foldl_append, String.append_assoc,
        origins]

end Command.Disk

end TypedClient
