import Mathlib
import TypedClient.Generation
import TypedClient.Proofs.ClaimSettlement
import TypedClient.Proofs.OperationPlacement

/-!
# Names of tags

Every module claims the clash key of its names, and no key is claimed twice. So the
classes of a client differ in more than the case of letters, and so do its instances.
A class and an instance can still have one name, since the suffix of an instance is
no part of a clash key.
-/

namespace TypedClient

namespace TagNames

theorem toList_clashKey (names : TagNames) :
    names.clashKey.toList = names.base.toList.map Char.toLower := by
  simp [clashKey]

theorem toLower_of_isDigit {c : Char} (digit : c.isDigit = true) : c.toLower = c := by
  refine Char.toLower_eq_of_not_isUpper fun upper => ?_
  have below : c.toNat ≤ 57 := (Char.isDigit_iff_toNat.mp digit).2
  rw [Char.isUpper, decide_eq_true_eq] at upper
  have above : 65 ≤ c.toNat := UInt32.le_iff_toNat_le.mp upper.1
  omega

theorem map_toLower_digits (number : Nat) :
    (toString number).toList.map Char.toLower = (toString number).toList := by
  refine (List.map_congr_left fun c member => ?_).trans (List.map_id _)
  rw [Nat.toString_eq_ofList_toDigits, String.toList_ofList] at member
  exact toLower_of_isDigit (Nat.isDigit_of_mem_toDigits (by decide) (by decide) member)

theorem clashKey_numbered (names : TagNames) (number : Nat) :
    (names.numbered number).clashKey = names.clashKey ++ toString number := by
  apply String.toList_injective
  simp only [toList_clashKey, numbered, String.toList_append, List.map_append, map_toLower_digits]

theorem clashKey_numbered_injective (names : TagNames) :
    Function.Injective fun number => (names.numbered number).clashKey := by
  intro first second equal
  simp only [clashKey_numbered] at equal
  have digits := congrArg String.toList equal
  rw [String.toList_append, String.toList_append, List.append_cancel_left_eq] at digits
  have texts : toString first = toString second := String.toList_injective digits
  exact Disambiguation.numberedIdentifier_injective "" (by
    rw [Disambiguation.numberedIdentifier, Disambiguation.numberedIdentifier, texts])

/-- The class determines the clash key. -/
theorem map_toLower_className (names : TagNames) :
    names.className.toList.map Char.toLower = names.clashKey.toList := by
  rw [toList_clashKey, className]
  cases names.base.toList with
  | nil => rfl
  | cons first rest => simp [Char.toLower_toUpper_eq_toLower]

theorem clashKey_eq_of_className_eq {names other : TagNames}
    (same : names.className = other.className) : names.clashKey = other.clashKey := by
  apply String.toList_injective
  rw [← map_toLower_className, ← map_toLower_className, same]

theorem eq_of_instanceName_eq {names other : TagNames}
    (same : names.instanceName = other.instanceName) : names = other := by
  have bases : names.base = other.base := by
    have characters := congrArg String.toList same
    rw [instanceName, instanceName, String.toList_append, String.toList_append,
      List.append_cancel_right_eq] at characters
    exact String.toList_injective characters
  obtain ⟨base⟩ := names
  obtain ⟨otherBase⟩ := other
  exact congrArg TagNames.mk bases

/-- A class is called like an instance only if the key of the one tag is that of the
other with the suffix of instances. -/
theorem clashKey_eq_of_className_eq_instanceName {names other : TagNames}
    (same : names.className = other.instanceName) :
    names.clashKey = other.clashKey ++ String.ofList (instanceSuffix.toList.map Char.toLower) := by
  apply String.toList_injective
  rw [← map_toLower_className, same, instanceName, String.toList_append, String.toList_append,
    List.map_append, toList_clashKey, String.toList_ofList]

end TagNames

namespace Grouping

/-- The clash keys are those of the modules, each claimed once. -/
structure ClaimsKeys (grouping : Grouping) : Prop where
  claims_eq : grouping.claims =
    grouping.modules.map fun module => (module.names.clashKey, module.tag)
  distinct : (grouping.claims.map Prod.fst).Nodup

theorem clashKey_numberedNames_not_mem (claims : List (String × String)) (preferred : TagNames) :
    (numberedNames claims preferred).clashKey ∉ claims.map Prod.fst := by
  have free := @freeNumber_not_mem String (fun number => (preferred.numbered number).clashKey) _
    (claims.map Prod.fst) _ preferred.clashKey_numbered_injective
  simpa only [numberedNames] using free

variable {grouping : Grouping}

theorem ClaimsKeys.clashKeys_pairwise (claimed : grouping.ClaimsKeys) :
    grouping.modules.Pairwise fun first second =>
      first.names.clashKey ≠ second.names.clashKey := by
  have distinct := claimed.distinct
  rw [claimed.claims_eq, List.map_map] at distinct
  exact List.pairwise_map.mp distinct

section Run

variable [Text.Conversions] {renamed : List (DeclarationName × String)}

/-- The names of a new tag have a free key. -/
theorem clashKey_namesFor_not_mem (claims : List (String × String)) (tag : String) :
    (namesFor claims tag).1.clashKey ∉ claims.map Prod.fst := by
  cases holder : claims.lookup (TagNames.ofTag tag).clashKey with
  | none =>
      simp only [namesFor, holder]
      intro member
      obtain ⟨claim, claimMem, same⟩ := List.mem_map.mp member
      exact absurd same.symm (by simpa using List.lookup_eq_none_iff.mp holder claim claimMem)
  | some existing =>
      simp only [namesFor, holder]
      exact clashKey_numberedNames_not_mem claims _

theorem ClaimsKeys.opened (claimed : grouping.ClaimsKeys) (tag : String) :
    (grouping.opened renamed tag).2.ClaimsKeys := by
  cases found : grouping.module? tag with
  | some module =>
      rw [opened_of_some found]
      exact claimed
  | none =>
      rw [opened_of_none found]
      constructor
      · simp [claimed.claims_eq, TagModule.new]
      · rw [List.map_append, List.nodup_append]
        refine ⟨claimed.distinct, by simp, ?_⟩
        intro key member other isNew same
        have isFresh : key = (namesFor grouping.claims tag).1.clashKey :=
          same.trans (List.mem_singleton.mp isNew)
        exact clashKey_namesFor_not_mem grouping.claims tag (isFresh ▸ member)

theorem ClaimsKeys.place (claimed : grouping.ClaimsKeys) (label : String)
    (compiled : CompiledOperation) (tag : String) :
    (place renamed label compiled grouping tag).ClaimsKeys := by
  have opened : (grouping.opened renamed tag).2.ClaimsKeys := claimed.opened tag
  constructor
  · rw [claims_place, opened.claims_eq, map_heading_place]
    intro module other sameTag sameNames
    rw [sameTag, sameNames]
  · rw [claims_place]
    exact opened.distinct

theorem claimsKeys_ofOperations (known : List String) (defaultTag : String)
    (renamed : List (DeclarationName × String)) (operations : List Operation) :
    (ofOperations known defaultTag renamed operations).ClaimsKeys :=
  ofOperations_induction known defaultTag renamed operations
    (fun _ grouping => grouping.ClaimsKeys) ⟨rfl, List.nodup_nil⟩
    (fun _ _ _ _ claimed => ⟨claimed.claims_eq, claimed.distinct⟩)
    fun operation _ tag _ _ _ claimed => claimed.place operation.label _ tag

/-- The names that the index exports for some modules: the class and the instance of
each. -/
def exportedNames (modules : List TagModule) : List String :=
  modules.flatMap fun module => [module.names.className, module.names.instanceName]

/-- How far the exported names of modules are apart: classes and instances each among
themselves, and a class from an instance unless the clash key of the one tag is that of
the other with the suffix of instances. -/
structure ExportsApart (modules : List TagModule) : Prop where
  classes : (modules.map fun module => module.names.className).Nodup
  instances : (modules.map fun module => module.names.instanceName).Nodup
  classInstance : ∀ first ∈ modules, ∀ second ∈ modules,
    first.names.className = second.names.instanceName →
      first.names.clashKey = second.names.clashKey ++ "api"
  exported : (∀ first ∈ modules, ∀ second ∈ modules,
    first.names.clashKey ≠ second.names.clashKey ++ "api") → (exportedNames modules).Nodup

/-- The exported names of all modules are apart as far as the clash keys keep them
apart. -/
theorem exportsApart_ofOperations (known : List String) (defaultTag : String)
    (renamed : List (DeclarationName × String)) (operations : List Operation) :
    ExportsApart (ofOperations known defaultTag renamed operations).modules := by
  have keysApart :=
    (claimsKeys_ofOperations known defaultTag renamed operations).clashKeys_pairwise
  have classInstance : ∀ first second : TagModule,
      first.names.className = second.names.instanceName →
        first.names.clashKey = second.names.clashKey ++ "api" := fun _ _ same =>
    TagNames.clashKey_eq_of_className_eq_instanceName same
  refine ⟨?classes, ?instances, fun first _ second _ => classInstance first second, ?exported⟩
  case classes =>
    refine List.pairwise_map.mpr (keysApart.imp fun apart same => apart ?_)
    exact TagNames.clashKey_eq_of_className_eq same
  case instances =>
    refine List.pairwise_map.mpr (keysApart.imp fun apart same => apart ?_)
    exact congrArg TagNames.clashKey (TagNames.eq_of_instanceName_eq same)
  case exported =>
    intro noSuffix
    have apart : ∀ first ∈ (ofOperations known defaultTag renamed operations).modules,
        ∀ second ∈ (ofOperations known defaultTag renamed operations).modules,
          first.names.className ≠ second.names.instanceName := fun first firstMem second secondMem
        same => noSuffix first firstMem second secondMem (classInstance first second same)
    refine List.nodup_flatMap.mpr ⟨fun module member => ?_, ?_⟩
    · simp [apart module member module member]
    · refine keysApart.imp_of_mem fun {first second} firstMem secondMem keys => ?_
      have classes : second.names.className ≠ first.names.className := fun same =>
        keys (TagNames.clashKey_eq_of_className_eq same).symm
      have instances : second.names.instanceName ≠ first.names.instanceName := fun same =>
        keys (congrArg TagNames.clashKey (TagNames.eq_of_instanceName_eq same)).symm
      simp [Function.onFun, classes, instances, apart second secondMem first firstMem,
        (apart first firstMem second secondMem).symm]

end Run

section Sample

attribute [local instance] Text.Conversions.unchanged

/-- Operations of two tags, of which the second is called like the instance of the
first. -/
def suffixSample : List Operation :=
  [⟨0, .get, "/pets", ["Pet"], [], none, none, none, none, false⟩,
    ⟨1, .get, "/calls", ["PetApi"], [], none, none, none, none, false⟩]

theorem not_nodup_exportedNames_suffixSample :
    ¬ (exportedNames (ofOperations [] defaultTag [] suffixSample).modules).Nodup := by
  decide

end Sample

end Grouping

end TypedClient
