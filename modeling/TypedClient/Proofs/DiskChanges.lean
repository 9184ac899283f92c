import Mathlib.Data.Set.Insert
import TypedClient.Proofs.DiskPlaces

/-!
# What changes on a disk

Creating directories changes no file, and writing a file changes the contents of one
place. Neither takes an entry away, so a path that could be followed before can still be
followed, and what was done once changes nothing when it is done again.
-/

namespace TypedClient

theorem Keyed.put_eq_self {κ β : Type} [DecidableEq κ] [BEq κ] [LawfulBEq κ] {name : κ} {value : β}
    {list : List (κ × β)} (found : list.lookup name = some value) :
    put Prod.fst (name, value) list = list := by
  induction list with
  | nil => exact absurd found (Option.some_ne_none value).symm
  | cons old rest ih =>
      obtain ⟨oldName, oldValue⟩ := old
      rw [List.lookup_cons] at found
      unfold put
      by_cases same : oldName = name
      · subst same
        obtain rfl : oldValue = value := by simpa using found
        simp
      · have different : (name == oldName) = false := by simpa using Ne.symm same
        rw [different] at found
        simp [same, ih found]

namespace Command.Disk

/-- The contents of the file at a place. -/
def contents? (disk : Disk) (place : Location) : Option (List UInt8) :=
  match disk.find? place with
  | some (.file contents) => some contents
  | _ => none

/-- A disk that keeps all entries of another, and its files but those at some places. -/
structure Changes (places : Set Location) (before after : Disk) : Prop where
  workingDirectory : after.workingDirectory = before.workingDirectory
  directories : ∀ place, before.find? place = some .directory →
    after.find? place = some .directory
  present : ∀ place, (before.find? place).isSome = true → (after.find? place).isSome = true
  contents : ∀ place ∉ places, after.contents? place = before.contents? place

variable {disk before after later : Disk} {places others : Set Location} {place location : Location}
  {path : String} {names : List String}

theorem contents?_eq_some {contents : List UInt8} :
    disk.contents? place = some contents ↔ disk.find? place = some (.file contents) := by
  unfold contents?
  split
  · rename_i found
    rw [found]
    simp
  · rename_i noFile
    exact iff_of_false (Option.some_ne_none contents).symm fun found => noFile contents found

theorem Changes.refl (places : Set Location) (disk : Disk) : Changes places disk disk :=
  ⟨rfl, fun _ => id, fun _ => id, fun _ _ => rfl⟩

theorem Changes.trans (first : Changes places before disk) (second : Changes places disk after) :
    Changes places before after where
  workingDirectory := second.workingDirectory.trans first.workingDirectory
  directories place isDirectory := second.directories place (first.directories place isDirectory)
  present place isPresent := second.present place (first.present place isPresent)
  contents place outside := (second.contents place outside).trans (first.contents place outside)

theorem Changes.mono (changes : Changes places before after) (subset : places ⊆ others) :
    Changes others before after where
  workingDirectory := changes.workingDirectory
  directories := changes.directories
  present := changes.present
  contents place outside := changes.contents place fun inside => outside (subset inside)

theorem follow_of_directories (directories : ∀ place, before.find? place = some .directory →
      after.find? place = some .directory)
    (followed : before.follow place names = .ok location) :
    after.follow place names = .ok location := by
  induction names generalizing place with
  | nil => exact followed
  | cons name rest ih =>
      unfold follow at followed
      split at followed
      · contradiction
      · contradiction
      · rename_i isDirectory
        unfold follow
        rw [directories place isDirectory]
        exact ih followed

theorem Changes.locate (changes : Changes places before after)
    (located : before.locate path = .ok location) : after.locate path = .ok location := by
  unfold Disk.locate at located ⊢
  split at located
  · contradiction
  · rename_i notEmpty
    have sameOrigin : after.origin path = before.origin path := by
      rw [origin, origin, changes.workingDirectory]
    rw [if_neg notEmpty, sameOrigin]
    exact follow_of_directories changes.directories located

theorem readFile_eq_ok_iff {bytes : List UInt8} : disk.readFile path = .ok bytes ↔
    ∃ location, disk.locate path = .ok location ∧ disk.contents? location = some bytes := by
  unfold readFile contents?
  cases located : disk.locate path with
  | error error => simp [bind, Except.bind]
  | ok location =>
      simp only [bind, Except.bind, Except.ok.injEq, exists_eq_left']
      cases disk.find? location with
      | none => simp
      | some entry => cases entry <;> simp

theorem Changes.readFile (changes : Changes places before after) {bytes : List UInt8}
    (read : before.readFile path = .ok bytes) (outside : before.placeOf path ∉ places) :
    after.readFile path = .ok bytes := by
  obtain ⟨location, located, contents⟩ := readFile_eq_ok_iff.mp read
  rw [locate_eq_placeOf located] at outside
  refine readFile_eq_ok_iff.mpr ⟨location, changes.locate located, ?_⟩
  rw [changes.contents location outside, contents]

theorem isPresent_eq_ok_true_iff : disk.isPresent path = .ok true ↔
    ∃ location, disk.locate path = .ok location ∧ (disk.find? location).isSome = true := by
  unfold isPresent
  cases located : disk.locate path with
  | error error => by_cases missing : error = .noSuchFile <;> simp [missing]
  | ok location => simp

theorem find?_eq_none_of_isPresent (located : disk.locate path = .ok location)
    (absent : disk.isPresent path = .ok false) : disk.find? location = none := by
  simpa [isPresent, located] using absent

theorem ne_nil_of_find?_ne (notDirectory : disk.find? place ≠ some .directory) : place ≠ [] := by
  rintro rfl
  exact notDirectory rfl

theorem find?_put_self (notDirectory : disk.find? place ≠ some .directory) (entry : Entry) :
    (disk.put place entry).find? place = some entry := by
  rw [find?_put disk place place entry (ne_nil_of_find?_ne notDirectory), if_pos rfl]

theorem find?_put_of_ne (notDirectory : disk.find? place ≠ some .directory) (entry : Entry)
    {other : Location} (different : other ≠ place) :
    (disk.put place entry).find? other = disk.find? other := by
  rw [find?_put disk place other entry (ne_nil_of_find?_ne notDirectory), if_neg different]

theorem changes_put (notDirectory : disk.find? place ≠ some .directory) (entry : Entry) :
    Changes {place} disk (disk.put place entry) where
  workingDirectory := rfl
  directories other isDirectory := by
    have different : other ≠ place := fun same => notDirectory (same ▸ isDirectory)
    rw [find?_put_of_ne notDirectory entry different, isDirectory]
  present other isPresent := by
    by_cases same : other = place
    · rw [same, find?_put_self notDirectory entry]
      rfl
    · rw [find?_put_of_ne notDirectory entry same, isPresent]
  contents other outside := by
    rw [contents?, contents?, find?_put_of_ne notDirectory entry outside]

theorem put_eq_self {entry : Entry} (found : disk.find? place = some entry) (below : place ≠ []) :
    disk.put place entry = disk := by
  have stored : disk.entries.lookup place = some entry := by
    rwa [find?, if_neg (by simpa using below)] at found
  rw [put, Keyed.put_eq_self stored]

theorem changes_put_directory (absent : disk.find? place = none) :
    Changes ∅ disk (disk.put place .directory) := by
  have notDirectory : disk.find? place ≠ some .directory := by simp [absent]
  have changes := changes_put notDirectory .directory
  refine ⟨changes.workingDirectory, changes.directories, changes.present, fun other _ => ?_⟩
  by_cases same : other = place
  · rw [same, contents?, contents?, find?_put_self notDirectory, absent]
  · exact changes.contents other same

theorem changes_createAlong (created : disk.createAlong place names = .ok after) :
    Changes ∅ disk after := by
  induction names generalizing disk place with
  | nil =>
      obtain rfl := Except.ok.inj created
      exact .refl ∅ _
  | cons name rest ih =>
      simp only [createAlong] at created
      split at created
      · exact ih created
      · contradiction
      · rename_i absent
        exact (changes_put_directory absent).trans (ih created)

/-- Directories that were created are there as long as directories stay. -/
theorem createAlong_eq_self (created : disk.createAlong place names = .ok after)
    (directories : ∀ place, after.find? place = some .directory →
      later.find? place = some .directory) :
    later.createAlong place names = .ok later := by
  induction names generalizing disk place with
  | nil => rfl
  | cons name rest ih =>
      simp only [createAlong] at created
      split at created
      · rename_i isDirectory
        have stays := directories _ ((changes_createAlong created).directories _ isDirectory)
        simp only [createAlong, stays]
        exact ih created
      · contradiction
      · rename_i absent
        have isDirectory : (disk.put (step place name) .directory).find? (step place name) =
            some .directory := find?_put_self (by simp [absent]) .directory
        have stays := directories _ ((changes_createAlong created).directories _ isDirectory)
        simp only [createAlong, stays]
        exact ih created

theorem writeFile_eq_ok_iff {contents : List UInt8} :
    disk.writeFile path contents = .ok after ↔ ∃ location, disk.locate path = .ok location ∧
      disk.find? location ≠ some .directory ∧ after = disk.put location (.file contents) := by
  unfold writeFile
  cases located : disk.locate path with
  | error error => simp [bind, Except.bind]
  | ok location =>
      simp only [bind, Except.bind, Except.ok.injEq, exists_eq_left']
      split
      · rename_i isDirectory
        simp [isDirectory]
      · rename_i notDirectory
        rw [Except.ok.injEq, eq_comm, iff_and_self]
        exact fun _ => notDirectory

end Command.Disk

end TypedClient
