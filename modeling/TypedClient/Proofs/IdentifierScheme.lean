import Mathlib
import TypedClient.Declaration.NameTable
import TypedClient.Path.Template
import TypedClient.Proofs.IdentifierAssignment

/-!
# What an identifier tells

An identifier is the word of a family, an owner and the property keys, with underscores
between them. Words and method names have no underscore, so an identifier of an
operation tells its family, its method name and the joined keys.
-/

namespace TypedClient

theorem isAlphanum_toUpper {c : Char} (alphanum : c.isAlphanum = true) :
    c.toUpper.isAlphanum = true := by
  by_cases lower : c.isLower = true
  · have isLetter : c.toUpper.isAlpha = true := by
      rw [Char.isAlpha_toUpper_eq_isAlpha, Char.isAlpha, lower, Bool.or_true]
    rw [Char.isAlphanum, isLetter, Bool.true_or]
  · rwa [Char.toUpper_eq_of_not_isLower lower]

namespace Identifier

theorem isAlphanum_of_mem_pascalFrom {text : List Char} {atWordStart : Bool} {c : Char}
    (member : c ∈ pascalFrom atWordStart text) : c.isAlphanum = true := by
  induction text generalizing atWordStart with
  | nil => exact absurd member List.not_mem_nil
  | cons first rest ih =>
      unfold pascalFrom at member
      split at member
      · rename_i alphanum
        rcases List.mem_cons.mp member with rfl | later
        · split
          · exact isAlphanum_toUpper alphanum
          · exact alphanum
        · exact ih later
      · exact ih member

end Identifier

namespace Path

variable [Text.Conversions]

theorem isAlphanum_of_mem_wordChars {text : List Char} {c : Char} (member : c ∈ wordChars text) :
    c.isAlphanum = true := by
  unfold wordChars at member
  split at member
  · rename_i allAlphanum
    cases text with
    | nil => exact absurd member List.not_mem_nil
    | cons first rest =>
        rw [List.all_cons, Bool.and_eq_true, List.all_eq_true] at allAlphanum
        rcases List.mem_cons.mp member with rfl | later
        · exact isAlphanum_toUpper allAlphanum.1
        · exact allAlphanum.2 c later
  · exact Identifier.isAlphanum_of_mem_pascalFrom member

theorem isAlphanum_of_mem_nameChars {piece : Piece} {c : Char} (member : c ∈ piece.nameChars) :
    c.isAlphanum = true := by
  cases piece with
  | literal text => exact isAlphanum_of_mem_wordChars member
  | placeholder name =>
      rcases List.mem_cons.mp member with rfl | later
      · decide
      · rcases List.mem_cons.mp later with rfl | inWord
        · decide
        · exact isAlphanum_of_mem_wordChars inWord

/-- A method name is made of letters and digits. -/
theorem isAlphanum_of_mem_functionName {method : HttpMethod} {path : String} {c : Char}
    (member : c ∈ (functionName method path).toList) : c.isAlphanum = true := by
  rw [functionName, String.toList_ofList] at member
  rcases List.mem_append.mp member with inMethod | inSegments
  · have allAlphanum : ∀ method : HttpMethod, method.name.toList.all Char.isAlphanum = true := by
      intro method
      cases method <;> decide
    exact List.all_eq_true.mp (allAlphanum method) c inMethod
  · obtain ⟨segment, _, inSegment⟩ := List.mem_flatMap.mp inSegments
    obtain ⟨piece, _, inPiece⟩ := List.mem_flatMap.mp inSegment
    exact isAlphanum_of_mem_nameChars inPiece

end Path

/-- A text of letters and digits. -/
def IsPlain (text : String) : Prop :=
  ∀ c ∈ text.toList, c.isAlphanum = true

theorem IsPlain.underscore_not_mem {text : String} (plain : IsPlain text) : '_' ∉ text.toList :=
  fun member => absurd (plain '_' member) (by decide)

/-- Texts without an underscore are told apart by what comes before the first one. -/
theorem eq_of_append_underscore {first second rest others : List Char} (plain : '_' ∉ first)
    (otherPlain : '_' ∉ second) (same : first ++ '_' :: rest = second ++ '_' :: others) :
    first = second ∧ rest = others := by
  induction first generalizing second with
  | nil =>
      cases second with
      | nil => exact ⟨rfl, (List.cons.inj same).2⟩
      | cons c second =>
          exact absurd (List.mem_cons.mpr (Or.inl (List.cons.inj same).1)) otherPlain
  | cons c first ih =>
      cases second with
      | nil => exact absurd (List.mem_cons.mpr (Or.inl (List.cons.inj same).1.symm)) plain
      | cons d second =>
          obtain ⟨rfl, sameRest⟩ := List.cons.inj same
          obtain ⟨rfl, equal⟩ := ih (fun member => plain (List.mem_cons_of_mem _ member))
            (fun member => otherPlain (List.mem_cons_of_mem _ member)) sameRest
          exact ⟨rfl, equal⟩

namespace NameFamily

theorem isPlain_word (family : NameFamily) : IsPlain family.word := by
  have allAlphanum : family.word.toList.all Char.isAlphanum = true := by cases family <;> decide
  exact List.all_eq_true.mp allAlphanum

theorem word_injective {family other : NameFamily} (same : family.word = other.word) :
    family = other := by
  cases family <;> cases other <;> first | rfl | exact absurd same (by decide)

end NameFamily

namespace DeclarationName

variable [Text.Conversions]

/-- The property keys of a name as an identifier has them. -/
def joinedKeys (name : DeclarationName) : String :=
  String.intercalate "_" (name.keys.map Identifier.fragment)

/-- What follows the owner in an identifier. -/
def keySuffix (name : DeclarationName) : List Char :=
  if name.keys.isEmpty then [] else '_' :: name.joinedKeys.toList

theorem toList_identifierFor (name : DeclarationName) (owner : String) :
    (name.identifierFor owner).toList =
      name.family.word.toList ++ '_' :: (owner.toList ++ name.keySuffix) := by
  unfold identifierFor keySuffix joinedKeys
  rw [String.intercalate_cons_of_ne_nil (List.cons_ne_nil _ _)]
  cases name.keys with
  | nil => simp [String.toList_append, String.intercalate_singleton]
  | cons key rest =>
      rw [List.map_cons, String.intercalate_cons_of_ne_nil (List.cons_ne_nil _ _)]
      simp [String.toList_append]

theorem joinedKeys_eq_of_keySuffix_eq {name other : DeclarationName}
    (same : name.keySuffix = other.keySuffix) : name.joinedKeys = other.joinedKeys := by
  unfold keySuffix at same
  split at same
  · rename_i noKeys
    split at same
    · rename_i otherNoKeys
      rw [joinedKeys, joinedKeys, List.isEmpty_iff.mp noKeys, List.isEmpty_iff.mp otherNoKeys]
    · exact absurd same.symm (List.cons_ne_nil _ _)
  · split at same
    · exact absurd same (List.cons_ne_nil _ _)
    · exact String.toList_injective (List.cons.inj same).2

/-- Nothing or an underscore follows the owner. -/
theorem exists_keySuffix_append (name : DeclarationName) :
    ∃ rest, name.keySuffix ++ ['_'] = '_' :: rest := by
  unfold keySuffix
  split
  · exact ⟨[], rfl⟩
  · exact ⟨_, rfl⟩

theorem eq_of_identifierFor_append {name other : DeclarationName} {owner otherOwner : String}
    {suffix otherSuffix : List Char}
    (same : (name.identifierFor owner).toList ++ suffix =
      (other.identifierFor otherOwner).toList ++ otherSuffix) : name.family = other.family := by
  rw [toList_identifierFor, toList_identifierFor, List.append_assoc, List.append_assoc] at same
  have words := (eq_of_append_underscore name.family.isPlain_word.underscore_not_mem
    other.family.isPlain_word.underscore_not_mem same).1
  exact NameFamily.word_injective (String.toList_injective words)

/-- With a plain owner, an identifier tells the family, the owner and the joined
keys. -/
theorem parts_eq_of_identifierFor_eq {name other : DeclarationName} {owner otherOwner : String}
    (plain : IsPlain owner) (otherPlain : IsPlain otherOwner)
    (same : name.identifierFor owner = other.identifierFor otherOwner) :
    name.family = other.family ∧ owner = otherOwner ∧ name.joinedKeys = other.joinedKeys := by
  have characters := congrArg String.toList same
  rw [toList_identifierFor, toList_identifierFor] at characters
  obtain ⟨words, rest⟩ := eq_of_append_underscore name.family.isPlain_word.underscore_not_mem
    other.family.isPlain_word.underscore_not_mem characters
  -- an underscore at the end marks the end of the owner, with keys and without
  obtain ⟨tail, tailEq⟩ := name.exists_keySuffix_append
  obtain ⟨otherTail, otherTailEq⟩ := other.exists_keySuffix_append
  have marked := congrArg (· ++ ['_']) rest
  simp only [List.append_assoc, tailEq, otherTailEq] at marked
  obtain ⟨owners, tails⟩ :=
    eq_of_append_underscore plain.underscore_not_mem otherPlain.underscore_not_mem marked
  have suffixes : name.keySuffix = other.keySuffix :=
    List.append_cancel_right (tailEq.trans (tails ▸ otherTailEq.symm))
  exact ⟨NameFamily.word_injective (String.toList_injective words), String.toList_injective owners,
    joinedKeys_eq_of_keySuffix_eq suffixes⟩

end DeclarationName

end TypedClient
