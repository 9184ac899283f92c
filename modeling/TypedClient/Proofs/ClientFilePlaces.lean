import Mathlib
import TypedClient.Proofs.ClientFileWrites
import TypedClient.Proofs.TagNumbering
import TypedClient.Proofs.WrittenModules

/-!
# Where the files of a client lie

The modules of a client lie in one directory under names of their own, and the index and
the support files beside that directory. Formatting changes contents only. So every file
of a client has a place of its own.
-/

namespace TypedClient

namespace ApiDocument

variable [Text.Conversions] {document : ApiDocument} {options : GenerationOptions}
  {client : GeneratedClient}

theorem fileStems_eq (generated : document.generate options = .ok client) :
    client.modules.map GeneratedModule.fileStem =
      (document.grouping (DtoRegistry.ofSchemas document.schemas).1 options).modules.map
        fun module => module.names.fileStem := by
  obtain ⟨cycles, modules, generatedEq, -, written⟩ := document.exists_written_client options
  obtain rfl := Except.ok.inj (generatedEq.symm.trans generated)
  have stems : (document.plans options).map (fun plan => plan.module.names.fileStem) =
      (document.clientOf options cycles modules).modules.map GeneratedModule.fileStem := by
    rw [← List.forall₂_eq_eq_eq, List.forall₂_map_left_iff, List.forall₂_map_right_iff]
    exact written.imp fun _ _ ⟨_, isWritten⟩ => isWritten.fileStem_eq.symm
  rw [← stems, plans, List.map_map]
  rfl

theorem isValid_fileStem (generated : document.generate options = .ok client)
    {module : GeneratedModule} (member : module ∈ client.modules) :
    Identifier.isValid module.fileStem = true := by
  have isStem := List.mem_map_of_mem (f := GeneratedModule.fileStem) member
  rw [fileStems_eq generated] at isStem
  obtain ⟨tagModule, tagMem, sameStem⟩ := List.mem_map.mp isStem
  rw [← sameStem]
  exact (Grouping.followsNaming_ofOperations _ _ _ _).isValid_of_mem tagMem

theorem fileStems_nodup (generated : document.generate options = .ok client) :
    (client.modules.map GeneratedModule.fileStem).Nodup := by
  rw [fileStems_eq generated]
  have lowered := (Grouping.claimsKeys_ofOperations document.schemaNames options.defaultTag
    (DtoRegistry.ofSchemas document.schemas).1.renamed document.operations).fileStems_nodup
  refine List.Nodup.of_map String.toLower ?_
  rwa [List.map_map]

end ApiDocument

namespace Command

variable {disk : Disk} {directory : String} {client : GeneratedClient} {session : Session}
  {configuration : Configuration} {files : List ClientFile}

/-- The names of the files that belong to the user once they exist. -/
def supportNames : List String :=
  supportFiles.map ClientFile.path

theorem mem_filesOf {file : ClientFile} (member : file ∈ filesOf client) :
    (∃ module ∈ client.modules, file = GeneratedModule.file module) ∨ file.path = "index.ts" ∨
      file.path ∈ supportNames ∧ file.isWrittenOnce = true := by
  rcases List.mem_append.mp member with isModule | isOther
  · obtain ⟨module, moduleMem, rfl⟩ := List.mem_map.mp isModule
    exact Or.inl ⟨module, moduleMem, rfl⟩
  · rcases List.mem_cons.mp isOther with rfl | isSupport
    · exact Or.inr (Or.inl rfl)
    · have once : ∀ file ∈ supportFiles, file.isWrittenOnce = true := by decide
      exact Or.inr (Or.inr ⟨List.mem_map_of_mem isSupport, once file isSupport⟩)

theorem placeOf_name (disk : Disk) (directory : String) {name : String}
    (isName : name ∈ "index.ts" :: supportNames) :
    disk.placeOf (FilePath.join directory name) = disk.placeOf directory ++ [name] := by
  have plain : ∀ name ∈ "index.ts" :: supportNames, Text.beginsWith "/" name = false ∧
      Disk.parts name = [name] ∧ (name ≠ "" ∧ name ≠ "." ∧ name ≠ "..") := by decide
  obtain ⟨relative, parts, areNames⟩ := plain name isName
  rw [disk.placeOf_join directory relative, parts]
  exact Disk.foldl_step_of_isName (List.forall_mem_singleton.mpr areNames) _

def placesBelow (place : Location) (client : GeneratedClient) : List Location :=
  (client.modules.map fun module =>
    place ++ [modulesDirectory, moduleFileName module.fileStem]) ++
  ("index.ts" :: supportNames).map fun name => place ++ [name]

theorem map_placeOf_filesOf
    (valid : ∀ module ∈ client.modules, Identifier.isValid module.fileStem = true) :
    (filesOf client).map (fun file => disk.placeOf (file.target directory)) =
      placesBelow (disk.placeOf directory) client := by
  have modulePlaces : ∀ module ∈ client.modules,
      disk.placeOf ((GeneratedModule.file module).target directory) =
        disk.placeOf directory ++ [modulesDirectory, moduleFileName module.fileStem] :=
    fun module member => placeOf_file disk directory (valid module member)
  have paths : (indexFile client.index :: supportFiles).map ClientFile.path =
      "index.ts" :: supportNames := rfl
  have otherPlaces : ∀ file ∈ indexFile client.index :: supportFiles,
      disk.placeOf (file.target directory) = disk.placeOf directory ++ [file.path] :=
    fun file member => placeOf_name disk directory (paths ▸ List.mem_map_of_mem member)
  rw [filesOf, List.map_append, List.map_map, Function.comp_def, List.map_congr_left modulePlaces,
    List.map_congr_left otherPlaces, placesBelow, ← paths, List.map_map, Function.comp_def]

theorem moduleFileName_injective : Function.Injective moduleFileName := by
  intro stem other same
  have characters := congrArg String.toList same
  rw [moduleFileName, moduleFileName, String.toList_append, String.toList_append,
    List.append_cancel_right_eq] at characters
  exact String.toList_injective characters

theorem nodup_placesBelow (distinct : (client.modules.map GeneratedModule.fileStem).Nodup)
    (place : Location) : (placesBelow place client).Nodup := by
  have modules : (client.modules.map fun module =>
      place ++ [modulesDirectory, moduleFileName module.fileStem]).Nodup := by
    have named := distinct.map moduleFileName_injective
    rw [List.map_map] at named
    have inDirectory : Function.Injective fun name => place ++ [modulesDirectory, name] := by
      intro name other same
      simpa using same
    have placed := named.map inDirectory
    rwa [List.map_map] at placed
  have others : (("index.ts" :: supportNames).map fun name => place ++ [name]).Nodup := by
    have names : ("index.ts" :: supportNames).Nodup := by decide
    refine names.map fun name other same => ?_
    simpa using same
  refine List.nodup_append.mpr ⟨modules, others, ?_⟩
  intro first isModule second isOther same
  obtain ⟨module, -, rfl⟩ := List.mem_map.mp isModule
  obtain ⟨name, -, rfl⟩ := List.mem_map.mp isOther
  simp at same

theorem map_eq_of_mapM_eq_ok {ε α β : Type} {step : α → Except ε α} {respect : α → β}
    (keeps : ∀ item result, step item = .ok result → respect result = respect item)
    {items results : List α} (succeeded : items.mapM step = .ok results) :
    results.map respect = items.map respect := by
  have pairs : List.Forall₂ Eq (items.map respect) (results.map respect) := by
    rw [List.forall₂_map_left_iff, List.forall₂_map_right_iff]
    refine (forall₂_of_mapM_eq_ok succeeded).imp fun item result made => ?_
    exact (keeps item result made).symm
  rw [List.forall₂_eq_eq_eq] at pairs
  exact pairs.symm

theorem heading_formattedFile {file formatted : ClientFile}
    (succeeded : session.formattedFile configuration file = .ok formatted) :
    (formatted.path, formatted.isWrittenOnce) = (file.path, file.isWrittenOnce) := by
  unfold Session.formattedFile at succeeded
  split at succeeded
  · obtain rfl := Except.ok.inj succeeded
    rfl
  · contradiction

variable [Text.Conversions] [MediaTypeParser]

/-- The files of a run are those of its client but for their contents. -/
theorem exists_client_of_files (prepared : session.files configuration = .ok files) :
    ∃ client, session.client configuration = .ok client ∧
      files.map (fun file => (file.path, file.isWrittenOnce)) =
        (filesOf client).map fun file => (file.path, file.isWrittenOnce) := by
  obtain ⟨client, generated, formatted⟩ := bind_eq_ok_iff.mp prepared
  exact ⟨client, generated, map_eq_of_mapM_eq_ok (fun _ _ => heading_formattedFile) formatted⟩

end Command

end TypedClient
