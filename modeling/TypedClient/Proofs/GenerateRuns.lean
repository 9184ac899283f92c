import Mathlib
import TypedClient.Proofs.ClientFilePlaces

/-!
# Runs of `generate`

Everything is loaded, generated and formatted before the first file is written. So a run
that fails earlier leaves the disk as it was, and any run changes only the files of its
own client. A support file that is present is kept, and a run that succeeded with the
built-in formatter changes nothing when it is repeated.
-/

namespace TypedClient.Command

open Session

/-- A result that is no failure of writing. -/
def FailsEarly {α : Type} (result : Except Failure α) : Prop :=
  ∀ failure, result = .error failure → failure.isOfWriting = false

section FailsEarly

variable {α β ε : Type}

theorem failsEarly_ok (value : α) : FailsEarly (.ok value) :=
  fun _ failed => by cases failed

theorem failsEarly_mapError {result : Except ε α} {failureOf : ε → Failure}
    (early : ∀ error, (failureOf error).isOfWriting = false) :
    FailsEarly (result.mapError failureOf) := by
  intro failure failed
  cases result with
  | error error => exact Except.error.inj failed ▸ early error
  | ok value => cases failed

theorem FailsEarly.bind {result : Except Failure α} {next : α → Except Failure β}
    (first : FailsEarly result) (others : ∀ value, FailsEarly (next value)) :
    FailsEarly (result.bind next) := by
  intro failure failed
  cases result with
  | error other => exact first failure (congrArg _ (Except.error.inj failed))
  | ok value => exact others value failure failed

theorem failsEarly_mapM {step : α → Except Failure β} (steps : ∀ item, FailsEarly (step item))
    (items : List α) : FailsEarly (items.mapM step) := by
  induction items with
  | nil => exact failsEarly_ok []
  | cons item rest ih =>
      rw [List.mapM_cons]
      exact (steps item).bind fun _ => ih.bind fun _ => failsEarly_ok _

variable [MediaTypeParser]

theorem failsEarly_opened (session : Session) (source : DocumentSource) :
    FailsEarly (session.opened source) := by
  cases source with
  | url address => exact (failsEarly_mapError fun _ => rfl).bind fun _ => failsEarly_ok _
  | file path => exact (failsEarly_mapError fun _ => rfl).bind fun _ => failsEarly_ok _

theorem failsEarly_files [Text.Conversions] (session : Session) (configuration : Configuration) :
    FailsEarly (session.files configuration) := by
  have loaded : FailsEarly (session.document configuration.source) :=
    (failsEarly_opened session _).bind fun _ => failsEarly_mapError fun _ => rfl
  have generated : FailsEarly (session.client configuration) :=
    loaded.bind fun _ => failsEarly_mapError fun _ => rfl
  have formatted : ∀ file, FailsEarly (session.formattedFile configuration file) := by
    intro file
    unfold Session.formattedFile
    split
    · exact failsEarly_ok _
    · intro failure failed
      exact Except.error.inj failed ▸ rfl
  exact generated.bind fun client => failsEarly_mapM formatted _

end FailsEarly

/-- A source is opened as before if servers answer as before and files that are not the
source change. -/
theorem Session.opened_of_changes [MediaTypeParser] {session other : Session}
    {source : DocumentSource} {places : Set Location} {content : DocumentFormat × List UInt8}
    (opened : session.opened source = .ok content)
    (changes : Disk.Changes places session.disk other.disk)
    (outside : ∀ path, source = .file path → session.disk.placeOf path ∉ places)
    (sameReply : ∀ address, source = .url address →
      other.network address = session.network address) : other.opened source = .ok content := by
  cases source with
  | url address =>
      rw [Session.opened, sameReply address rfl]
      exact opened
  | file path =>
      obtain ⟨bytes, read, contentEq⟩ := bind_eq_ok_iff.mp opened
      have readAgain := changes.readFile (mapError_eq_ok_iff.mp read) (outside path rfl)
      exact bind_eq_ok_iff.mpr ⟨bytes, mapError_eq_ok_iff.mpr readAgain, contentEq⟩

/-- A run of `generate`, with what it finds besides the disk. -/
structure Run where
  network : Network
  programs : List (Location × Program)
  timestamp : String
  palette : Palette
  configuration : Configuration

namespace Run

def session (run : Run) (disk : Disk) : Session where
  disk := disk
  network := run.network
  programs := run.programs
  timestamp := run.timestamp
  printed := []
  printedErrors := []

def reporter (run : Run) : Reporter (StateM Session) :=
  ⟨Session.host, run.palette, run.configuration.verbose, run.configuration.quiet⟩

/-- What a run does once its files are prepared. -/
def write (run : Run) (files : List ClientFile) : ExceptT Failure (StateM Session) Unit := do
  run.reporter.announce (writingMessage run.configuration.outputDirectory)
  let written ← writeFiles Session.host run.configuration.outputDirectory files
  run.reporter.reportWritten written
  run.reporter.reportSuccess

theorem writesClient_write (run : Run) (files : List ClientFile) (disk : Disk)
    (printed printedErrors : List String) :
    WritesClient run.configuration.outputDirectory files disk
      ((run.write files).run { run.session disk with printed, printedErrors }).1
      ((run.write files).run { run.session disk with printed, printedErrors }).2.disk := by
  have announced : OnlyPrints (run.session disk) (liftM (run.reporter.announce
      (writingMessage run.configuration.outputDirectory)) :
        ExceptT Failure (StateM Session) Unit).run (.ok ()) :=
    (Reporter.onlyPrints_announce _).lift
  obtain ⟨announcedLines, errorLines, announcedEq⟩ := announced printed printedErrors
  obtain ⟨result, after, writtenEq, writes⟩ := writesClient_writeFiles
    run.configuration.outputDirectory files
      { run.session disk with printed := announcedLines, printedErrors := errorLines }
  unfold write
  rw [run_bind, announcedEq]
  simp only
  rw [run_bind, writtenEq]
  cases result with
  | error failure => exact writes
  | ok written =>
      have reported : OnlyPrints { run.session disk with disk := after } (do
          liftM (run.reporter.reportWritten written)
          liftM run.reporter.reportSuccess : ExceptT Failure (StateM Session) Unit).run
            (.ok ()) :=
        (Reporter.onlyPrints_reportWritten written).thenStep
          Reporter.onlyPrints_reportSuccess.lift
      obtain ⟨_, _, reportedEq⟩ := reported announcedLines errorLines
      simp only
      rw [reportedEq]
      exact writes

variable [Text.Conversions] [MediaTypeParser]

/-- What a run comes to before it writes. -/
def prepared (run : Run) (disk : Disk) : Except Failure (List ClientFile) :=
  ((prepare run.reporter run.configuration).run (run.session disk)).1

/-- What a run comes to, and the disk that it leaves. -/
def perform (run : Run) (disk : Disk) : Except Failure Unit × Disk :=
  let (result, session) :=
    (generate Session.host run.palette run.configuration).run (run.session disk)
  (result, session.disk)

/-- What a run can come to. -/
inductive Performs (run : Run) (disk : Disk) : Except Failure Unit → Disk → Prop
  | failed {failure : Failure} (failed : run.prepared disk = .error failure) :
      Performs run disk (.error failure) disk
  | wrote {files : List ClientFile} {result : Except Failure Unit} {after : Disk}
      (prepared : run.prepared disk = .ok files)
      (writes : WritesClient run.configuration.outputDirectory files disk result after) :
      Performs run disk result after

variable {run : Run} {disk after : Disk}

theorem exists_prepare_eq (run : Run) (disk : Disk) : ∃ printed printedErrors,
    (prepare run.reporter run.configuration).run (run.session disk) =
      ((run.session disk).files run.configuration,
        { run.session disk with printed, printedErrors }) := by
  have prints : OnlyPrints (run.session disk) (prepare run.reporter run.configuration).run
      ((run.session disk).files run.configuration) := onlyPrints_prepare run.configuration
  exact prints [] []

theorem prepared_eq (run : Run) (disk : Disk) :
    run.prepared disk = (run.session disk).files run.configuration := by
  obtain ⟨_, _, preparedEq⟩ := run.exists_prepare_eq disk
  exact congrArg Prod.fst preparedEq

theorem performs_perform (run : Run) (disk : Disk) :
    Performs run disk (run.perform disk).1 (run.perform disk).2 := by
  have steps : generate Session.host run.palette run.configuration =
      prepare run.reporter run.configuration >>= run.write := rfl
  obtain ⟨printed, printedErrors, preparedEq⟩ := run.exists_prepare_eq disk
  have outcome := run.prepared_eq disk
  rw [perform, steps, run_bind, preparedEq]
  cases filesEq : (run.session disk).files run.configuration with
  | error failure => exact .failed (outcome.trans filesEq)
  | ok files =>
      have written := run.writesClient_write files disk printed printedErrors
      simp only
      generalize (run.write files).run { run.session disk with printed, printedErrors } = ended
        at written ⊢
      exact .wrote (outcome.trans filesEq) written

/-- The places where a run can change a file: those of the modules of its client, that of
the index, and those of the support files that are missing. -/
def mayChange (run : Run) (disk : Disk) : Set Location :=
  {place | ∃ client, (run.session disk).client run.configuration = .ok client ∧
    ((∃ module ∈ client.modules, place = disk.placeOf run.configuration.outputDirectory ++
        [modulesDirectory, moduleFileName module.fileStem]) ∨
      place = disk.placeOf run.configuration.outputDirectory ++ ["index.ts"] ∨
      ∃ name ∈ supportNames, place = disk.placeOf run.configuration.outputDirectory ++ [name] ∧
        disk.find? place = none)}

/-- A run is safe on a disk. -/
structure IsSafe (run : Run) (disk : Disk) : Prop where
  /-- Nothing is written before everything is loaded, generated and formatted. -/
  atomic : ∀ failure, run.prepared disk = .error failure →
    failure.isOfWriting = false ∧ run.perform disk = (.error failure, disk)
  early : ∀ failure, (run.perform disk).1 = .error failure → failure.isOfWriting = false →
    (run.perform disk).2 = disk
  support : ∀ name ∈ supportNames, ∀ entry,
    disk.find? (disk.placeOf run.configuration.outputDirectory ++ [name]) = some entry →
      (run.perform disk).2.find? (disk.placeOf run.configuration.outputDirectory ++ [name]) =
        some entry
  changes : ∀ place ∉ run.mayChange disk,
    (run.perform disk).2.contents? place = disk.contents? place
  /-- Repeating the run on the same input changes nothing. The input is the same unless a
  server answers otherwise or the run itself has written it. -/
  again : (run.perform disk).1 = .ok () → run.configuration.formatter = .builtin →
    (∀ path, run.configuration.source = .file path → disk.placeOf path ∉ run.mayChange disk) →
      ∀ repeated : Run, repeated.configuration = run.configuration →
        (∀ address, run.configuration.source = .url address →
          repeated.network address = run.network address) →
        repeated.perform (run.perform disk).2 = (.ok (), (run.perform disk).2)

theorem exists_document_of_client {client : GeneratedClient}
    (generated : (run.session disk).client run.configuration = .ok client) :
    ∃ document : ApiDocument, document.generate run.configuration.options = .ok client := by
  obtain ⟨document, -, outcome⟩ := bind_eq_ok_iff.mp generated
  exact ⟨document, mapError_eq_ok_iff.mp outcome⟩

theorem placesOf_subset_mayChange {files : List ClientFile}
    (prepared : run.prepared disk = .ok files) :
    placesOf run.configuration.outputDirectory disk files ⊆ run.mayChange disk := by
  rw [prepared_eq] at prepared
  obtain ⟨client, generated, headings⟩ := exists_client_of_files prepared
  obtain ⟨document, generatedFrom⟩ := exists_document_of_client generated
  rintro place ⟨file, member, rfl, absent⟩
  have isHeading := List.mem_map_of_mem (f := fun file : ClientFile =>
    (file.path, file.isWrittenOnce)) member
  rw [headings] at isHeading
  obtain ⟨original, originalMem, same⟩ := List.mem_map.mp isHeading
  obtain ⟨samePath, sameOnce⟩ := Prod.mk.inj same
  refine ⟨client, generated, ?_⟩
  rw [ClientFile.target, ← samePath] at absent ⊢
  rcases mem_filesOf originalMem with ⟨module, moduleMem, rfl⟩ | isIndex | ⟨isSupport, once⟩
  · refine Or.inl ⟨module, moduleMem, ?_⟩
    exact placeOf_file disk _ (ApiDocument.isValid_fileStem generatedFrom moduleMem)
  · have isName : original.path ∈ "index.ts" :: supportNames := isIndex ▸ List.mem_cons_self
    refine Or.inr (Or.inl ?_)
    rw [placeOf_name disk _ isName, isIndex]
  · have isName := List.mem_cons_of_mem "index.ts" isSupport
    refine Or.inr (Or.inr ⟨original.path, isSupport, placeOf_name disk _ isName, ?_⟩)
    exact absent (sameOnce.symm.trans once)

theorem performs_changes {result : Except Failure Unit}
    (performs : Performs run disk result after) :
    Disk.Changes (run.mayChange disk) disk after := by
  cases performs with
  | failed _ => exact .refl _ disk
  | wrote prepared writes => exact writes.changes.mono (placesOf_subset_mayChange prepared)

theorem support_not_mem_mayChange {name : String} (isName : name ∈ supportNames)
    (present : (disk.find?
      (disk.placeOf run.configuration.outputDirectory ++ [name])).isSome = true) :
    disk.placeOf run.configuration.outputDirectory ++ [name] ∉ run.mayChange disk := by
  rintro ⟨client, -, ⟨module, -, same⟩ | same | ⟨other, -, -, absent⟩⟩
  · simp at same
  · have notIndex : "index.ts" ∉ supportNames := by decide
    have nameEq : name = "index.ts" := by simpa using same
    exact notIndex (nameEq ▸ isName)
  · rw [absent] at present
    cases present

theorem perform_of_failed {failure : Failure} (failed : run.prepared disk = .error failure) :
    run.perform disk = (.error failure, disk) := by
  have performs := run.performs_perform disk
  cases outcome : run.perform disk with
  | mk result after =>
      simp only [outcome] at performs
      cases performs with
      | failed other =>
          obtain rfl := Except.error.inj (failed.symm.trans other)
          rfl
      | wrote prepared _ =>
          rw [failed] at prepared
          cases prepared

theorem nodup_targets {files : List ClientFile} (prepared : run.prepared disk = .ok files) :
    (files.map fun file =>
      disk.placeOf (file.target run.configuration.outputDirectory)).Nodup := by
  rw [prepared_eq] at prepared
  obtain ⟨client, generated, headings⟩ := exists_client_of_files prepared
  obtain ⟨document, generatedFrom⟩ := exists_document_of_client generated
  have targets : ∀ files : List ClientFile, (files.map fun file =>
      disk.placeOf (file.target run.configuration.outputDirectory)) =
        (files.map fun file => (file.path, file.isWrittenOnce)).map fun heading =>
          disk.placeOf (FilePath.join run.configuration.outputDirectory heading.1) := by
    intro files
    rw [List.map_map]
    rfl
  rw [targets, headings, ← targets, map_placeOf_filesOf fun _ member =>
    ApiDocument.isValid_fileStem generatedFrom member]
  exact nodup_placesBelow (ApiDocument.fileStems_nodup generatedFrom) _

theorem perform_again (succeeded : (run.perform disk).1 = .ok ())
    (builtin : run.configuration.formatter = .builtin)
    (outside : ∀ path, run.configuration.source = .file path →
      disk.placeOf path ∉ run.mayChange disk) {repeated : Run}
    (same : repeated.configuration = run.configuration)
    (sameReply : ∀ address, run.configuration.source = .url address →
      repeated.network address = run.network address) :
    repeated.perform (run.perform disk).2 = (.ok (), (run.perform disk).2) := by
  have performs := run.performs_perform disk
  have changes := performs_changes performs
  have performsAgain := repeated.performs_perform (run.perform disk).2
  rw [succeeded] at performs
  cases performs with
  | @wrote files _ _ prepared writes =>
      have preparedAgain : repeated.prepared (run.perform disk).2 = .ok files := by
        rw [prepared_eq] at prepared ⊢
        obtain ⟨client, generated, -⟩ := bind_eq_ok_iff.mp prepared
        obtain ⟨document, loaded, -⟩ := bind_eq_ok_iff.mp generated
        obtain ⟨content, opened, -⟩ := bind_eq_ok_iff.mp loaded
        have openedAgain : (repeated.session (run.perform disk).2).opened
            run.configuration.source = .ok content :=
          Session.opened_of_changes opened changes outside sameReply
        rw [same, Session.files_eq_of_opened builtin (openedAgain.trans opened.symm), prepared]
      cases outcome : repeated.perform (run.perform disk).2 with
      | mk result later =>
          simp only [outcome] at performsAgain
          cases performsAgain with
          | failed failed =>
              rw [preparedAgain] at failed
              cases failed
          | wrote otherPrepared writesAgain =>
              obtain rfl := Except.ok.inj (preparedAgain.symm.trans otherPrepared)
              rw [same] at writesAgain
              obtain ⟨rfl, rfl⟩ := writes.again (nodup_targets prepared) writesAgain
              rfl

theorem isSafe (run : Run) (disk : Disk) : run.IsSafe disk := by
  have performs := run.performs_perform disk
  have changes := performs_changes performs
  refine ⟨?atomic, ?early, ?support, changes.contents, ?again⟩
  case atomic =>
    intro failure failed
    have early : failure.isOfWriting = false := by
      rw [prepared_eq] at failed
      exact failsEarly_files _ _ failure failed
    exact ⟨early, perform_of_failed failed⟩
  case early =>
    intro failure failed early
    rw [failed] at performs
    generalize (run.perform disk).2 = after at performs ⊢
    cases performs with
    | failed _ => rfl
    | wrote _ writes => exact absurd (writes.isOfWriting.symm.trans early) (by decide)
  case support =>
    intro name isName entry found
    cases entry with
    | directory => exact changes.directories _ found
    | file contents =>
        have outside := support_not_mem_mayChange isName (Option.isSome_of_eq_some found)
        have unchanged := changes.contents _ outside
        rw [Disk.contents?_eq_some.mpr found] at unchanged
        exact Disk.contents?_eq_some.mp unchanged
  case again =>
    exact fun succeeded builtin outside _ same sameReply =>
      perform_again succeeded builtin outside same sameReply

end Run

/-- What happens to a disk: the user changes it in some way, or a client is generated. -/
inductive Event
  | edit (change : Disk → Disk)
  | generate (run : Run)

variable [Text.Conversions] [MediaTypeParser]

def Event.apply : Event → Disk → Disk
  | edit change, disk => change disk
  | generate run, disk => (run.perform disk).2

/-- Every run of a history has a property, on the disk that it finds. -/
def EveryRun (property : Run → Disk → Prop) : Disk → List Event → Prop
  | _, [] => True
  | disk, event :: rest =>
      (∀ run, event = .generate run → property run disk) ∧ EveryRun property (event.apply disk) rest

/-- Whatever happens between them, all runs are safe. -/
theorem everyRun_isSafe (start : Disk) (events : List Event) :
    EveryRun Run.IsSafe start events := by
  induction events generalizing start with
  | nil => trivial
  | cons event rest ih => exact ⟨fun run _ => run.isSafe start, ih (event.apply start)⟩

/-- An event leaves a place alone: an edit by itself, and a run if there it puts a support
file at most. -/
def Event.Leaves (place : Location) : Event → Prop
  | edit change => ∀ disk, (change disk).find? place = disk.find? place
  | generate run => ∀ disk : Disk, ∃ name ∈ supportNames,
      place = disk.placeOf run.configuration.outputDirectory ++ [name]

/-- A support file outlasts every history in which the user leaves it alone. -/
theorem find?_foldl_apply {place : Location} {entry : Entry} {start : Disk} {events : List Event}
    (there : start.find? place = some entry) (leave : ∀ event ∈ events, event.Leaves place) :
    (events.foldl (fun disk event => event.apply disk) start).find? place = some entry := by
  induction events generalizing start with
  | nil => exact there
  | cons event rest ih =>
      have leaves := leave event List.mem_cons_self
      refine ih ?_ fun other member => leave other (List.mem_cons_of_mem _ member)
      cases event with
      | edit change => exact (leaves start).trans there
      | generate run =>
          obtain ⟨name, isName, rfl⟩ := leaves start
          exact (run.isSafe start).support name isName entry there

end TypedClient.Command
