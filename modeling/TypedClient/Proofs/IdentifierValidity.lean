import Mathlib
import TypedClient.Command.ClientFile
import TypedClient.Proofs.DiskPlaces
import TypedClient.Tag.Grouping

/-!
# Valid identifiers of tags

Whatever the text of a tag, the identifier made from it is valid, with a number and
without. So the file of a module never lies outside the directory of the modules.
-/

namespace TypedClient

namespace Identifier

variable {c : Char} {text other : List Char}

theorem isPart_of_isStart (start : isStart c = true) : isPart c = true := by
  simp only [isStart, isPart, Char.isAlphanum, Bool.or_eq_true] at *
  tauto

/-- Digits are all that an identifier can hold and not start with. -/
theorem isStart_of_isPart (part : isPart c = true) (notDigit : c.isDigit = false) :
    isStart c = true := by
  simpa [isStart, isPart, Char.isAlphanum, notDigit] using part

theorem isPart_of_isDigit (digit : c.isDigit = true) : isPart c = true := by
  simp [isPart, Char.isAlphanum, digit]

theorem isPart_of_mem (valid : validChars text = true) (member : c ∈ text) : isPart c = true := by
  cases text with
  | nil => exact absurd member List.not_mem_nil
  | cons first rest =>
      obtain ⟨start, others⟩ := Bool.and_eq_true_iff.mp valid
      rcases List.mem_cons.mp member with rfl | later
      · exact isPart_of_isStart start
      · exact List.all_eq_true.mp others c later

theorem validChars_append (valid : validChars text = true)
    (parts : ∀ c ∈ other, isPart c = true) : validChars (text ++ other) = true := by
  cases text with
  | nil => exact absurd valid (by decide)
  | cons first rest =>
      obtain ⟨start, others⟩ := Bool.and_eq_true_iff.mp valid
      have allParts : (rest ++ other).all isPart = true := by
        rw [List.all_append, others, List.all_eq_true.mpr parts]
        rfl
      rw [List.cons_append, validChars, start, allParts]
      rfl

theorem isValid_append {identifier suffix : String} (valid : isValid identifier = true)
    (parts : ∀ c ∈ suffix.toList, isPart c = true) : isValid (identifier ++ suffix) = true := by
  rw [isValid, String.toList_append]
  exact validChars_append valid parts

theorem isPart_of_mem_toString {number : Nat} {c : Char} (member : c ∈ (toString number).toList) :
    isPart c = true := by
  rw [Nat.toString_eq_ofList_toDigits, String.toList_ofList] at member
  exact isPart_of_isDigit (Nat.isDigit_of_mem_toDigits (by decide) (by decide) member)

/-- The guard leaves nothing at the front that an identifier cannot start with. -/
theorem validChars_guardChars (notEmpty : text ≠ []) (parts : ∀ c ∈ text, isPart c = true) :
    validChars (guardChars text) = true := by
  have allParts : text.all isPart = true := List.all_eq_true.mpr parts
  unfold guardChars
  split
  · simp [validChars, isStart, allParts]
  · rename_i unguarded
    cases text with
    | nil => exact absurd rfl notEmpty
    | cons first rest =>
        have notDigit : first.isDigit = false := by
          simp only [List.head?_cons, Option.any_some, Bool.or_eq_true, not_or] at unguarded
          simpa using unguarded.1
        have start := isStart_of_isPart (parts first List.mem_cons_self) notDigit
        rw [List.all_cons, Bool.and_eq_true] at allParts
        rw [validChars, start, allParts.2]
        rfl

end Identifier

namespace TagNames

theorem isValid_numbered {names : TagNames} (valid : Identifier.isValid names.base = true)
    (number : Nat) : Identifier.isValid (names.numbered number).base = true :=
  Identifier.isValid_append valid fun _ => Identifier.isPart_of_mem_toString

variable [Text.Conversions]

theorem validChars_baseChars (tag : List Char) :
    Identifier.validChars (baseChars tag) = true := by
  unfold baseChars
  split
  · assumption
  · split
    · rfl
    · rename_i notEmpty
      refine Identifier.validChars_guardChars notEmpty fun c member => ?_
      exact (List.mem_filter.mp member).2

theorem isValid_ofTag (tag : String) : Identifier.isValid (ofTag tag).base = true := by
  rw [Identifier.isValid, ofTag, String.toList_ofList]
  exact validChars_baseChars _

end TagNames

theorem Grouping.isValid_namesFor [Text.Conversions] (claims : List (String × String))
    (tag : String) :
    Identifier.isValid (namesFor claims tag).1.base = true := by
  simp only [namesFor]
  split
  · exact TagNames.isValid_ofTag tag
  · exact TagNames.isValid_numbered (TagNames.isValid_ofTag tag) _

namespace Command

def moduleFileName (stem : String) : String :=
  stem ++ ".ts"

variable {stem : String}

theorem slash_not_mem_moduleFileName (valid : Identifier.isValid stem = true) :
    '/' ∉ (moduleFileName stem).toList := by
  intro member
  rw [moduleFileName, String.toList_append, List.mem_append] at member
  rcases member with inStem | inExtension
  · exact absurd (Identifier.isPart_of_mem valid inStem) (by decide)
  · exact absurd inExtension (by decide)

theorem isName_moduleFileName (stem : String) : Disk.IsName (moduleFileName stem) := by
  -- the last letter of the extension is in none of the special parts
  have letter : 's' ∈ (moduleFileName stem).toList := by
    rw [moduleFileName, String.toList_append]
    exact List.mem_append_right _ (by decide)
  refine ⟨?_, ?_, ?_⟩ <;> intro same <;> rw [same] at letter <;> exact absurd letter (by decide)

theorem join_modulesDirectory (valid : Identifier.isValid stem = true) :
    FilePath.join modulesDirectory (moduleFileName stem) =
      modulesDirectory ++ "/" ++ moduleFileName stem := by
  have relative : Text.beginsWith "/" (moduleFileName stem) = false := by
    rw [Text.beginsWith]
    have noSlash := slash_not_mem_moduleFileName valid
    cases characters : (moduleFileName stem).toList with
    | nil => rfl
    | cons c rest =>
        rw [characters, List.mem_cons, not_or] at noSlash
        have slash : ("/" : String).toList = ['/'] := rfl
        simpa [slash, List.isPrefixOf] using noSlash.1
  have notEmpty : modulesDirectory.isEmpty = false := by decide
  have notClosed : (modulesDirectory.toList.getLast? == some '/') = false := by decide
  simp [FilePath.join, relative, notEmpty, notClosed]

theorem parts_join_modulesDirectory (valid : Identifier.isValid stem = true) :
    Disk.parts (FilePath.join modulesDirectory (moduleFileName stem)) =
      [modulesDirectory, moduleFileName stem] := by
  have directoryParts : Disk.parts modulesDirectory = [modulesDirectory] := by decide
  rw [join_modulesDirectory valid, Disk.parts_append_slash, directoryParts,
    Disk.parts_of_not_mem (slash_not_mem_moduleFileName valid)]
  rfl

theorem placeOf_file (disk : Disk) (directory : String) {module : GeneratedModule}
    (valid : Identifier.isValid module.fileStem = true) :
    disk.placeOf (FilePath.join directory (GeneratedModule.file module).path) =
      disk.placeOf directory ++ [modulesDirectory, moduleFileName module.fileStem] := by
  have path : (GeneratedModule.file module).path =
      FilePath.join modulesDirectory (moduleFileName module.fileStem) := rfl
  have relative : Text.beginsWith "/" (GeneratedModule.file module).path = false := by
    rw [path, join_modulesDirectory valid, String.append_assoc]
    exact (Disk.beginsWith_append (by decide) _).trans (by decide)
  have isName : Disk.IsName modulesDirectory := ⟨by decide, by decide, by decide⟩
  rw [disk.placeOf_join directory relative, path, parts_join_modulesDirectory valid]
  refine Disk.foldl_step_of_isName (fun name member => ?_) _
  rcases List.mem_cons.mp member with rfl | isFile
  · exact isName
  · rw [List.mem_singleton.mp isFile]
    exact isName_moduleFileName _

end Command

end TypedClient
