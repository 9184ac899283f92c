import Mathlib
import TypedClient.Proofs.DiskChanges
import TypedClient.Proofs.SessionRuns

/-!
# Writing the files of a client

The files of a client are written one after the other. Each is written, or kept because
it is present and belongs to the user, or refused, which ends the run. Once all are
written, writing them again changes nothing.
-/

namespace TypedClient.Command

open Text Session

/-- Whether a run failed when it had begun to write. -/
def Failure.isOfWriting : Failure → Bool
  | directoryNotCreated .. | presenceUnknown .. | fileNotWritten .. => true
  | _ => false

section File

variable {directory : String} {file other : ClientFile} {disk after later : Disk}
  {result : Except Failure (Option String)}

def ClientFile.target (directory : String) (file : ClientFile) : String :=
  FilePath.join directory file.path

/-- What writing a file below a directory comes to. -/
inductive Writes (directory : String) (file : ClientFile) (disk : Disk) :
    Except Failure (Option String) → Disk → Prop
  | kept (once : file.isWrittenOnce = true)
      (present : disk.isPresent (file.target directory) = .ok true) :
      Writes directory file disk (.ok none) disk
  | written {after : Disk}
      (absent : file.isWrittenOnce = true → disk.isPresent (file.target directory) = .ok false)
      (written : disk.writeFile (file.target directory) (Utf8.encode file.contents) = .ok after) :
      Writes directory file disk (.ok (some (file.target directory))) after
  | unknown {error : SystemError} (once : file.isWrittenOnce = true)
      (unknown : disk.isPresent (file.target directory) = .error error) :
      Writes directory file disk (.error (.presenceUnknown (file.target directory) error)) disk
  | refused {error : SystemError}
      (absent : file.isWrittenOnce = true → disk.isPresent (file.target directory) = .ok false)
      (refused : disk.writeFile (file.target directory) (Utf8.encode file.contents) =
        .error error) :
      Writes directory file disk (.error (.fileNotWritten (file.target directory) error)) disk

theorem writes_of_absent (directory : String) (file : ClientFile) (session : Session)
    (absent : file.isWrittenOnce = true →
      session.disk.isPresent (file.target directory) = .ok false) :
    ∃ result after, (do
        orFail (.fileNotWritten (file.target directory))
          (Session.host.writeFile (file.target directory) file.contents)
        return some (file.target directory) :
          ExceptT Failure (StateM Session) (Option String)).run session =
        (result, { session with disk := after }) ∧
      Writes directory file session.disk result after := by
  rw [run_bind, run_orFail]
  cases written : session.disk.writeFile (file.target directory) (Utf8.encode file.contents) with
  | error error =>
      have asked : Session.host.writeFile (file.target directory) file.contents session =
          (.error error, session) := by simp only [Session.host, update, written]
      rw [asked]
      exact ⟨.error (.fileNotWritten (file.target directory) error), session.disk, rfl,
        .refused absent written⟩
  | ok after =>
      have asked : Session.host.writeFile (file.target directory) file.contents session =
          (.ok (), { session with disk := after }) := by
        simp only [Session.host, update, written]
      rw [asked]
      exact ⟨.ok (some (file.target directory)), after, rfl, .written absent written⟩

theorem writes_writeFile? (directory : String) (file : ClientFile) (session : Session) :
    ∃ result after, (writeFile? Session.host directory file).run session =
        (result, { session with disk := after }) ∧
      Writes directory file session.disk result after := by
  unfold writeFile?
  cases once : file.isWrittenOnce with
  | false =>
      exact writes_of_absent directory file session fun isOnce =>
        absurd (once.symm.trans isOnce) Bool.false_ne_true
  | true =>
      have asked : Session.host.isPresent (FilePath.join directory file.path) session =
          (session.disk.isPresent (file.target directory), session) := rfl
      rw [if_pos rfl, run_bind, run_orFail, asked]
      cases found : session.disk.isPresent (file.target directory) with
      | error error =>
          exact ⟨.error (.presenceUnknown (file.target directory) error), session.disk, rfl,
            .unknown once found⟩
      | ok isPresent =>
          cases isPresent with
          | true => exact ⟨.ok none, session.disk, rfl, .kept once found⟩
          | false => exact writes_of_absent directory file session fun _ => found

/-- The places where writing a file can change something: a file that belongs to the user
is written only where nothing is. -/
def placesOf (directory : String) (disk : Disk) (files : List ClientFile) : Set Location :=
  {place | ∃ file ∈ files, place = disk.placeOf (file.target directory) ∧
    (file.isWrittenOnce = true → disk.find? place = none)}

theorem Writes.changes (writes : Writes directory file disk result after) :
    Disk.Changes (placesOf directory disk [file]) disk after := by
  cases writes with
  | kept _ _ => exact .refl _ disk
  | unknown _ _ => exact .refl _ disk
  | refused _ _ => exact .refl _ disk
  | written absent written =>
      obtain ⟨location, located, notDirectory, rfl⟩ := Disk.writeFile_eq_ok_iff.mp written
      refine (Disk.changes_put notDirectory _).mono ?_
      rintro _ rfl
      exact ⟨file, List.mem_singleton_self file, (Disk.locate_eq_placeOf located).symm,
        fun once => Disk.find?_eq_none_of_isPresent located (absent once)⟩

/-- A file is where it belongs: with its contents, or with any if it belongs to the
user. -/
def Disk.Has (disk : Disk) (directory : String) (file : ClientFile) : Prop :=
  ∃ location, disk.locate (file.target directory) = .ok location ∧
    (disk.find? location).isSome = true ∧
    (file.isWrittenOnce = false →
      disk.find? location = some (.file (Utf8.encode file.contents)))

theorem Writes.has {written : Option String}
    (writes : Writes directory file disk (.ok written) after) : after.Has directory file := by
  cases writes with
  | kept once present =>
      obtain ⟨location, located, isSome⟩ := Disk.isPresent_eq_ok_true_iff.mp present
      exact ⟨location, located, isSome, fun owned => absurd (once.symm.trans owned) (by decide)⟩
  | written absent written =>
      obtain ⟨location, located, notDirectory, rfl⟩ := Disk.writeFile_eq_ok_iff.mp written
      have found := Disk.find?_put_self notDirectory (.file (Utf8.encode file.contents))
      refine ⟨location, (Disk.changes_put notDirectory _).locate located, ?_, fun _ => found⟩
      rw [found]
      rfl

theorem Disk.Has.changes {places : Set Location} (has : disk.Has directory file)
    (changes : Disk.Changes places disk after)
    (outside : file.isWrittenOnce = false → disk.placeOf (file.target directory) ∉ places) :
    after.Has directory file := by
  obtain ⟨location, located, isSome, contents⟩ := has
  refine ⟨location, changes.locate located, changes.present location isSome, fun owned => ?_⟩
  have unchanged := changes.contents location (Disk.locate_eq_placeOf located ▸ outside owned)
  rw [Disk.contents?_eq_some.mpr (contents owned)] at unchanged
  exact Disk.contents?_eq_some.mp unchanged

theorem Disk.Has.writes_eq (has : disk.Has directory file)
    (writes : Writes directory file disk result after) :
    after = disk ∧ ∃ written, result = .ok written := by
  obtain ⟨location, located, isSome, contents⟩ := has
  have present : disk.isPresent (file.target directory) = .ok true :=
    Disk.isPresent_eq_ok_true_iff.mpr ⟨location, located, isSome⟩
  have ofUser : file.isWrittenOnce = true →
      disk.isPresent (file.target directory) ≠ .ok false := by
    intro _ absent
    rw [present] at absent
    cases absent
  cases writes with
  | kept _ _ => exact ⟨rfl, none, rfl⟩
  | unknown once unknown =>
      rw [present] at unknown
      cases unknown
  | written absent written =>
      -- the file is not the user's, so the same contents are put again
      have owned := Bool.eq_false_iff.mpr fun once => ofUser once (absent once)
      obtain ⟨other, otherLocated, notDirectory, rfl⟩ := Disk.writeFile_eq_ok_iff.mp written
      obtain rfl := Except.ok.inj (located.symm.trans otherLocated)
      exact ⟨Disk.put_eq_self (contents owned) (Disk.ne_nil_of_find?_ne notDirectory), _, rfl⟩
  | refused absent refused =>
      have owned := Bool.eq_false_iff.mpr fun once => ofUser once (absent once)
      have notDirectory : disk.find? location ≠ some .directory := by simp [contents owned]
      have accepted : disk.writeFile (file.target directory) (Utf8.encode file.contents) =
          .ok (disk.put location (.file (Utf8.encode file.contents))) :=
        Disk.writeFile_eq_ok_iff.mpr ⟨location, located, notDirectory, rfl⟩
      rw [refused] at accepted
      cases accepted

end File

section Files

variable {directory : String} {files : List ClientFile} {disk after : Disk}
  {result : Except Failure Unit}

/-- What writing some files in order comes to. -/
inductive WritesAll (directory : String) :
    List ClientFile → Disk → Except Failure Unit → Disk → Prop
  | done (disk : Disk) : WritesAll directory [] disk (.ok ()) disk
  | next {file : ClientFile} {rest : List ClientFile} {disk middle after : Disk}
      {written : Option String} {result : Except Failure Unit}
      (first : Writes directory file disk (.ok written) middle)
      (others : WritesAll directory rest middle result after) :
      WritesAll directory (file :: rest) disk result after
  | stopped {file : ClientFile} {rest : List ClientFile} {disk after : Disk} {failure : Failure}
      (first : Writes directory file disk (.error failure) after) :
      WritesAll directory (file :: rest) disk (.error failure) after

theorem writesAll_mapM (directory : String) (files : List ClientFile) (session : Session) :
    ∃ result after, (files.mapM (writeFile? Session.host directory)).run session =
        (result, { session with disk := after }) ∧
      WritesAll directory files session.disk (result.map fun _ => ()) after := by
  induction files generalizing session with
  | nil => exact ⟨.ok [], session.disk, rfl, .done session.disk⟩
  | cons file rest ih =>
      obtain ⟨first, middle, firstEq, firstWrites⟩ := writes_writeFile? directory file session
      rw [List.mapM_cons, run_bind, firstEq]
      cases first with
      | error failure => exact ⟨.error failure, middle, rfl, .stopped firstWrites⟩
      | ok written =>
          obtain ⟨others, after, othersEq, othersWrite⟩ := ih { session with disk := middle }
          simp only
          rw [run_bind, othersEq]
          cases others with
          | error failure => exact ⟨.error failure, after, rfl, .next firstWrites othersWrite⟩
          | ok paths =>
              exact ⟨.ok (written :: paths), after, rfl, .next firstWrites othersWrite⟩

theorem WritesAll.isOfWriting {failure : Failure}
    (writes : WritesAll directory files disk (.error failure) after) :
    failure.isOfWriting = true := by
  generalize failed : Except.error failure = result at writes
  induction writes with
  | done disk => cases failed
  | next first others ih => exact ih failed
  | stopped first =>
      cases failed
      cases first <;> rfl

theorem placesOf_mono {others : List ClientFile} (subset : files ⊆ others) :
    placesOf directory disk files ⊆ placesOf directory disk others :=
  fun _ ⟨file, member, isPlace⟩ => ⟨file, subset member, isPlace⟩

/-- Where something can change later, something could change before. -/
theorem Disk.Changes.placesOf_subset {places : Set Location}
    (changes : Disk.Changes places disk after) :
    placesOf directory after files ⊆ placesOf directory disk files := by
  rintro place ⟨file, member, rfl, absent⟩
  refine ⟨file, member, Disk.placeOf_congr changes.workingDirectory _, fun once => ?_⟩
  by_contra isThere
  have stillThere := changes.present _ (Option.isSome_iff_ne_none.mpr isThere)
  rw [absent once] at stillThere
  cases stillThere

theorem WritesAll.changes (writes : WritesAll directory files disk result after) :
    Disk.Changes (placesOf directory disk files) disk after := by
  induction writes with
  | done disk => exact .refl _ disk
  | stopped first => exact first.changes.mono (placesOf_mono (by simp))
  | @next file rest disk middle after written result first others ih =>
      have early : Disk.Changes (placesOf directory disk (file :: rest)) disk middle :=
        first.changes.mono (placesOf_mono (by simp))
      have late : Disk.Changes (placesOf directory disk (file :: rest)) middle after :=
        ih.mono (first.changes.placesOf_subset.trans (placesOf_mono (by simp)))
      exact early.trans late

/-- Files with places of their own are all where they belong once they are written. -/
theorem WritesAll.has (writes : WritesAll directory files disk result after)
    (succeeded : result = .ok ())
    (apart : (files.map fun file => disk.placeOf (file.target directory)).Nodup) :
    ∀ file ∈ files, after.Has directory file := by
  induction writes with
  | done disk => exact fun _ member => absurd member List.not_mem_nil
  | stopped first => cases succeeded
  | @next file rest disk middle after written result first others ih =>
      have samePlaces : ∀ other : ClientFile, middle.placeOf (other.target directory) =
          disk.placeOf (other.target directory) := fun other =>
        Disk.placeOf_congr first.changes.workingDirectory _
      obtain ⟨ownPlace, restApart⟩ := List.nodup_cons.mp apart
      simp only [← samePlaces] at ownPlace restApart
      refine List.forall_mem_cons.mpr ⟨first.has.changes others.changes fun _ => ?_,
        ih succeeded restApart⟩
      rintro ⟨other, otherMem, samePlace, -⟩
      exact ownPlace (List.mem_map.mpr ⟨other, otherMem, samePlace.symm⟩)

theorem WritesAll.eq_of_has (writes : WritesAll directory files disk result after)
    (has : ∀ file ∈ files, disk.Has directory file) : result = .ok () ∧ after = disk := by
  induction writes with
  | done disk => exact ⟨rfl, rfl⟩
  | stopped first =>
      obtain ⟨-, written, succeeded⟩ := (has _ List.mem_cons_self).writes_eq first
      cases succeeded
  | next first others ih =>
      obtain ⟨rfl, -⟩ := (has _ List.mem_cons_self).writes_eq first
      exact ih fun file member => has file (List.mem_cons_of_mem _ member)

/-- What writing some files comes to, with the directory of the modules created first. -/
inductive WritesClient (directory : String) (files : List ClientFile) (disk : Disk) :
    Except Failure Unit → Disk → Prop
  | blocked {error : SystemError}
      (refused : disk.createDirectories (FilePath.join directory modulesDirectory) =
        .error error) :
      WritesClient directory files disk
        (.error (.directoryNotCreated (FilePath.join directory modulesDirectory) error)) disk
  | begun {start after : Disk} {result : Except Failure Unit}
      (created : disk.createDirectories (FilePath.join directory modulesDirectory) = .ok start)
      (writes : WritesAll directory files start result after) :
      WritesClient directory files disk result after

theorem writesClient_writeFiles (directory : String) (files : List ClientFile)
    (session : Session) :
    ∃ result after, (writeFiles Session.host directory files).run session =
        (result, { session with disk := after }) ∧
      WritesClient directory files session.disk (result.map fun _ => ()) after := by
  unfold writeFiles
  rw [run_bind, run_orFail]
  cases created : session.disk.createDirectories (FilePath.join directory modulesDirectory) with
  | error error =>
      have asked : Session.host.createDirectories (FilePath.join directory modulesDirectory)
          session = (.error error, session) := by
        simp only [Session.host, update, created]
      rw [asked]
      exact ⟨.error (.directoryNotCreated (FilePath.join directory modulesDirectory) error),
        session.disk, rfl, .blocked created⟩
  | ok start =>
      have asked : Session.host.createDirectories (FilePath.join directory modulesDirectory)
          session = (.ok (), { session with disk := start }) := by
        simp only [Session.host, update, created]
      obtain ⟨result, after, writtenEq, writes⟩ :=
        writesAll_mapM directory files { session with disk := start }
      rw [asked]
      refine ⟨result.map fun written => written.filterMap id, after, ?_, ?_⟩
      · change (files.mapM (writeFile? Session.host directory) >>= fun written =>
          pure (written.filterMap id)).run { session with disk := start } = _
        rw [run_bind, writtenEq]
        cases result <;> rfl
      · cases result <;> exact .begun created writes

theorem WritesClient.isOfWriting {failure : Failure}
    (writes : WritesClient directory files disk (.error failure) after) :
    failure.isOfWriting = true := by
  cases writes with
  | blocked _ => rfl
  | begun _ writes => exact writes.isOfWriting

theorem WritesClient.changes (writes : WritesClient directory files disk result after) :
    Disk.Changes (placesOf directory disk files) disk after := by
  cases writes with
  | blocked _ => exact .refl _ disk
  | begun created writes =>
      have early := Disk.changes_createAlong created
      exact (early.mono (Set.empty_subset _)).trans (writes.changes.mono early.placesOf_subset)

theorem WritesClient.again {again : Except Failure Unit} {later : Disk}
    (writes : WritesClient directory files disk (.ok ()) after)
    (apart : (files.map fun file => disk.placeOf (file.target directory)).Nodup)
    (writesAgain : WritesClient directory files after again later) :
    again = .ok () ∧ later = after := by
  cases writes with
  | @begun start _ _ created writes =>
      have samePlaces : ∀ file : ClientFile, start.placeOf (file.target directory) =
          disk.placeOf (file.target directory) := fun file =>
        Disk.placeOf_congr (Disk.changes_createAlong created).workingDirectory _
      simp only [← samePlaces] at apart
      have has := writes.has rfl apart
      have createdAgain : after.createDirectories (FilePath.join directory modulesDirectory) =
          .ok after := by
        have sameOrigin : after.origin (FilePath.join directory modulesDirectory) =
            disk.origin (FilePath.join directory modulesDirectory) := by
          rw [Disk.origin, Disk.origin, writes.changes.workingDirectory,
            (Disk.changes_createAlong created).workingDirectory]
        rw [Disk.createDirectories, sameOrigin]
        exact Disk.createAlong_eq_self created writes.changes.directories
      cases writesAgain with
      | blocked refused =>
          rw [createdAgain] at refused
          cases refused
      | begun createdLater writesLater =>
          obtain rfl := Except.ok.inj (createdAgain.symm.trans createdLater)
          exact writesLater.eq_of_has has

end Files

end TypedClient.Command
