import Mathlib
import TypedClient.Proofs.IdentifierValidity
import TypedClient.Proofs.TagModuleContents
import TypedClient.Proofs.TagNameClaims

/-!
# Numbered tags

A tag keeps the names made from it exactly if their clash key is free when the tag is
first met. Otherwise it gets the least number whose key is free, and one warning tells
which tag was in its way. So every tag has a module file of its own, also where the case
of letters does not count in file names.
-/

namespace TypedClient

/-- A warning that the names of a tag are numbered. -/
def Warning.isRenamingOf (tag : String) : Warning → Bool
  | tagRenamed other .. => other = tag
  | _ => false

theorem Warning.filter_isRenamingOf_eq_nil {tag : String} {warnings : List Warning}
    (noneKind : ∀ warning ∈ warnings, warning.kind ≠ .tagRenamed) :
    warnings.filter (isRenamingOf tag) = [] := by
  refine List.filter_eq_nil_iff.mpr fun warning member => ?_
  have different := noneKind warning member
  cases warning <;> simp [isRenamingOf, kind] at different ⊢

namespace TagNames

theorem toLower_fileStem (names : TagNames) : names.fileStem.toLower = names.clashKey := by
  apply String.toList_injective
  rw [toList_clashKey, String.toLower, String.toList_map]
  rfl

end TagNames

namespace Grouping

theorem exists_isLeast_numberedNames (claims : List (String × String)) (preferred : TagNames) :
    ∃ number, numberedNames claims preferred = preferred.numbered number ∧
      IsLeast {number | 2 ≤ number ∧
        (preferred.numbered number).clashKey ∉ claims.map Prod.fst} number := by
  refine ⟨_, rfl, ⟨firstNumber_le_freeNumber, clashKey_numberedNames_not_mem claims preferred⟩, ?_⟩
  intro number isFree
  by_contra! passed
  exact isFree.2 (mem_of_lt_freeNumber isFree.1 passed)

section NewTag

variable [Text.Conversions] {claims : List (String × String)} {tag : String}

theorem namesFor_of_free (free : (TagNames.ofTag tag).clashKey ∉ claims.map Prod.fst) :
    namesFor claims tag = (TagNames.ofTag tag, []) := by
  cases holder : claims.lookup (TagNames.ofTag tag).clashKey with
  | none => simp only [namesFor, holder]
  | some existing =>
      obtain ⟨earlier, later, claimsEq, -⟩ := List.lookup_eq_some_iff.mp holder
      rw [claimsEq] at free
      simp at free

theorem namesFor_of_held (distinct : (claims.map Prod.fst).Nodup) {holder : String}
    (held : ((TagNames.ofTag tag).clashKey, holder) ∈ claims) :
    namesFor claims tag = (numberedNames claims (TagNames.ofTag tag),
      [.tagRenamed tag (TagNames.ofTag tag).className holder
        (numberedNames claims (TagNames.ofTag tag)).className]) := by
  cases found : claims.lookup (TagNames.ofTag tag).clashKey with
  | none =>
      have missing := List.lookup_eq_none_iff.mp found _ held
      simp at missing
  | some existing =>
      obtain ⟨earlier, later, claimsEq, -⟩ := List.lookup_eq_some_iff.mp found
      have existingMem : ((TagNames.ofTag tag).clashKey, existing) ∈ claims := by
        rw [claimsEq]
        exact List.mem_append_right _ List.mem_cons_self
      have same := congrArg Prod.snd (List.inj_on_of_nodup_map distinct existingMem held rfl)
      obtain rfl : existing = holder := same
      simp only [namesFor, found]

theorem filter_isRenamingOf_namesFor (claims : List (String × String)) (tag other : String) :
    (namesFor claims tag).2.filter (Warning.isRenamingOf other) =
      if tag = other then (namesFor claims tag).2 else [] := by
  cases found : claims.lookup (TagNames.ofTag tag).clashKey with
  | none =>
      have silent : (namesFor claims tag).2 = [] := by simp only [namesFor, found]
      rw [silent, ite_self]
      rfl
  | some existing =>
      have single : (namesFor claims tag).2 = [.tagRenamed tag (TagNames.ofTag tag).className
          existing (numberedNames claims (TagNames.ofTag tag)).className] := by
        simp only [namesFor, found]
      rw [single]
      by_cases same : tag = other <;> simp [Warning.isRenamingOf, same]

end NewTag

def headings (grouping : Grouping) : List (String × TagNames) :=
  grouping.modules.map fun module => (module.tag, module.names)

/-- The keys of some headings, with the tags that hold them. -/
def keysOf (headings : List (String × TagNames)) : List (String × String) :=
  headings.map fun heading => (heading.2.clashKey, heading.1)

/-- Every tag has the names that it gets after the tags before it, and no more warnings
than that gives. -/
structure FollowsNaming [Text.Conversions] (grouping : Grouping) : Prop where
  named : ∀ earlier heading later, grouping.headings = earlier ++ heading :: later →
    namesFor (keysOf earlier) heading.1 =
      (heading.2, grouping.warnings.filter (Warning.isRenamingOf heading.1))
  unmet : ∀ tag ∉ grouping.headings.map Prod.fst,
    grouping.warnings.filter (Warning.isRenamingOf tag) = []

theorem followsNaming_empty [Text.Conversions] : FollowsNaming empty where
  named := by simp [headings, empty]
  unmet := fun _ _ => rfl

variable {grouping : Grouping}

theorem ClaimsKeys.claims_eq_keysOf (claimed : grouping.ClaimsKeys) :
    grouping.claims = keysOf grouping.headings := by
  rw [claimed.claims_eq, keysOf, headings, List.map_map]
  rfl

theorem map_fst_headings : grouping.headings.map Prod.fst = grouping.modules.map TagModule.tag := by
  rw [headings, List.map_map]
  rfl

theorem ClaimsKeys.fileStems_nodup (claimed : grouping.ClaimsKeys) :
    (grouping.modules.map fun module => module.names.fileStem.toLower).Nodup := by
  refine List.pairwise_map.mpr (claimed.clashKeys_pairwise.imp fun apart same => apart ?_)
  rwa [TagNames.toLower_fileStem, TagNames.toLower_fileStem] at same

/-- The keys of some modules, with the tags that hold them. -/
def heldKeys (modules : List TagModule) : List (String × String) :=
  modules.map fun module => (module.names.clashKey, module.tag)

theorem not_mem_heldKeys_iff {earlier : List TagModule} {key : String} :
    key ∉ (heldKeys earlier).map Prod.fst ↔
    ∀ other ∈ earlier, other.names.clashKey ≠ key := by
  simp [heldKeys]

variable [Text.Conversions] {renamed : List (DeclarationName × String)}

theorem FollowsNaming.congr {other : Grouping} (follows : grouping.FollowsNaming)
    (sameHeadings : other.headings = grouping.headings)
    (sameRenamings : ∀ tag, other.warnings.filter (Warning.isRenamingOf tag) =
      grouping.warnings.filter (Warning.isRenamingOf tag)) : other.FollowsNaming where
  named := by
    rw [sameHeadings]
    intro earlier heading later split
    rw [sameRenamings, follows.named earlier heading later split]
  unmet := by
    rw [sameHeadings]
    intro tag absent
    rw [sameRenamings, follows.unmet tag absent]

theorem FollowsNaming.opened (follows : grouping.FollowsNaming) (claimed : grouping.ClaimsKeys)
    (tag : String) : (grouping.opened renamed tag).2.FollowsNaming := by
  cases found : grouping.module? tag with
  | some module =>
      rw [opened_of_some found]
      exact follows
  | none =>
      have absent : tag ∉ grouping.headings.map Prod.fst :=
        map_fst_headings ▸ not_mem_tags_of_module? found
      have headingsEq : (grouping.opened renamed tag).2.headings =
          grouping.headings ++ [(tag, (namesFor grouping.claims tag).1)] := by
        rw [opened_of_none found, headings, headings, List.map_append]
        rfl
      have renamingsEq : ∀ other, (grouping.opened renamed tag).2.warnings.filter
          (Warning.isRenamingOf other) = grouping.warnings.filter (Warning.isRenamingOf other) ++
            if tag = other then (namesFor grouping.claims tag).2 else [] := by
        intro other
        rw [opened_of_none found, List.filter_append, filter_isRenamingOf_namesFor]
      constructor
      · intro earlier heading later split
        rw [headingsEq] at split
        rw [renamingsEq]
        rcases List.eq_nil_or_concat later with rfl | ⟨others, last, rfl⟩
        · -- the new tag
          obtain ⟨rfl, isNew⟩ := List.append_inj' split rfl
          obtain rfl := (List.singleton_inj.mp isNew).symm
          rw [if_pos rfl, follows.unmet tag absent, claimed.claims_eq_keysOf]
          rfl
        · -- a tag that was met before
          rw [List.concat_eq_append, ← List.cons_append, ← List.append_assoc] at split
          have before := (List.append_inj' split rfl).1
          have isOld : heading.1 ∈ grouping.headings.map Prod.fst := by
            rw [before]
            simp
          have different : tag ≠ heading.1 := fun same => absent (same ▸ isOld)
          rw [if_neg different, List.append_nil]
          exact follows.named earlier heading others before
      · intro other otherAbsent
        rw [headingsEq, List.map_append, List.mem_append, not_or] at otherAbsent
        have different : tag ≠ other := by simpa [eq_comm] using otherAbsent.2
        rw [renamingsEq, if_neg different, List.append_nil, follows.unmet other otherAbsent.1]

theorem FollowsNaming.place (follows : grouping.FollowsNaming) (claimed : grouping.ClaimsKeys)
    (label : String) (compiled : CompiledOperation) (tag : String) :
    (place renamed label compiled grouping tag).FollowsNaming := by
  have opened : (grouping.opened renamed tag).2.FollowsNaming := follows.opened claimed tag
  refine opened.congr ?headings ?renamings
  case headings =>
    refine map_heading_place fun module other sameTag sameNames => ?_
    rw [sameTag, sameNames]
  case renamings =>
    intro other
    cases absorbed : (grouping.opened renamed tag).1.absorb? compiled with
    | some extended => rw [place_of_absorbed absorbed]
    | none =>
        have noRenaming : [Warning.duplicateFunctionName tag label
            compiled.method.functionName].filter (Warning.isRenamingOf other) = [] := rfl
        rw [place_of_refused absorbed, List.filter_append, noRenaming, List.append_nil]

theorem followsNaming_ofOperations (known : List String) (defaultTag : String)
    (renamed : List (DeclarationName × String)) (operations : List Operation) :
    (ofOperations known defaultTag renamed operations).FollowsNaming := by
  refine (ofOperations_induction known defaultTag renamed operations
    (fun _ grouping => grouping.ClaimsKeys ∧ grouping.FollowsNaming)
    ⟨⟨rfl, List.nodup_nil⟩, followsNaming_empty⟩ ?compiled ?placed).2
  case compiled =>
    rintro operation - - grouping ⟨claimed, follows⟩
    have noRenaming : ∀ tag,
        (operation.compile known).2.filter (Warning.isRenamingOf tag) = [] := fun tag =>
      Warning.filter_isRenamingOf_eq_nil fun warning member => by
        rw [Operation.kind_compile member]
        decide
    refine ⟨⟨claimed.claims_eq, claimed.distinct⟩, follows.congr rfl fun tag => ?_⟩
    rw [List.filter_append, noRenaming, List.append_nil]
  case placed =>
    rintro operation - tag - - grouping ⟨claimed, follows⟩
    exact ⟨claimed.place operation.label _ tag, follows.place claimed operation.label _ tag⟩

/-- The names of a tag after the modules that are there when it is first met, and the
warnings of numbering it. -/
structure IsNamedAfter (earlier : List TagModule) (module : TagModule)
    (renamings : List Warning) : Prop where
  keeps_iff : module.names = TagNames.ofTag module.tag ↔
    ∀ other ∈ earlier, other.names.clashKey ≠ (TagNames.ofTag module.tag).clashKey
  silent : module.names = TagNames.ofTag module.tag → renamings = []
  numbered : ∀ holder ∈ earlier,
    holder.names.clashKey = (TagNames.ofTag module.tag).clashKey →
      (∃ number, module.names = (TagNames.ofTag module.tag).numbered number ∧
        IsLeast {number | 2 ≤ number ∧ ∀ other ∈ earlier,
          other.names.clashKey ≠ ((TagNames.ofTag module.tag).numbered number).clashKey} number) ∧
      renamings = [.tagRenamed module.tag (TagNames.ofTag module.tag).className holder.tag
        module.names.className]

section NamedAfter

variable {earlier later : List TagModule} {module holder : TagModule} {renamings : List Warning}

theorem isNamedAfter_of_free
    (free : ∀ other ∈ earlier, other.names.clashKey ≠ (TagNames.ofTag module.tag).clashKey)
    (named : namesFor (heldKeys earlier) module.tag = (module.names, renamings)) :
    IsNamedAfter earlier module renamings := by
  rw [namesFor_of_free (not_mem_heldKeys_iff.mpr free), Prod.mk.injEq] at named
  exact ⟨iff_of_true named.1.symm free, fun _ => named.2.symm,
    fun holder member same => absurd same (free holder member)⟩

/-- Whichever module holds the key, its tag is the one that the warning tells. -/
theorem eq_numberedNames_of_held (distinct : ((heldKeys earlier).map Prod.fst).Nodup)
    (member : holder ∈ earlier)
    (held : holder.names.clashKey = (TagNames.ofTag module.tag).clashKey)
    (named : namesFor (heldKeys earlier) module.tag = (module.names, renamings)) :
    module.names = numberedNames (heldKeys earlier) (TagNames.ofTag module.tag) ∧
      renamings = [.tagRenamed module.tag (TagNames.ofTag module.tag).className holder.tag
        module.names.className] := by
  have heldKey : ((TagNames.ofTag module.tag).clashKey, holder.tag) ∈ heldKeys earlier :=
    List.mem_map.mpr ⟨holder, member, by rw [held]⟩
  rw [namesFor_of_held distinct heldKey, Prod.mk.injEq] at named
  exact ⟨named.1.symm, by rw [← named.2, named.1]⟩

theorem isNamedAfter_of_held (distinct : ((heldKeys earlier).map Prod.fst).Nodup)
    (member : holder ∈ earlier)
    (held : holder.names.clashKey = (TagNames.ofTag module.tag).clashKey)
    (named : namesFor (heldKeys earlier) module.tag = (module.names, renamings)) :
    IsNamedAfter earlier module renamings := by
  have isNumbered := (eq_numberedNames_of_held distinct member held named).1
  have changed : module.names ≠ TagNames.ofTag module.tag := by
    intro kept
    have numberedFree := not_mem_heldKeys_iff.mp
      (clashKey_numberedNames_not_mem (heldKeys earlier) (TagNames.ofTag module.tag))
    rw [← isNumbered, kept] at numberedFree
    exact numberedFree holder member held
  obtain ⟨number, namesEq, least⟩ :=
    exists_isLeast_numberedNames (heldKeys earlier) (TagNames.ofTag module.tag)
  simp only [not_mem_heldKeys_iff] at least
  refine ⟨iff_of_false changed fun free => free holder member held,
    fun kept => absurd kept changed, fun other otherMem otherHeld => ?_⟩
  exact ⟨⟨number, isNumbered.trans namesEq, least⟩,
    (eq_numberedNames_of_held distinct otherMem otherHeld named).2⟩

theorem FollowsNaming.isNamedAfter (follows : grouping.FollowsNaming)
    (claimed : grouping.ClaimsKeys) (split : grouping.modules = earlier ++ module :: later) :
    IsNamedAfter earlier module
      (grouping.warnings.filter (Warning.isRenamingOf module.tag)) := by
  have headingsEq : grouping.headings =
      earlier.map (fun module => (module.tag, module.names)) ++ (module.tag, module.names) ::
        later.map fun module => (module.tag, module.names) := by
    rw [headings, split, List.map_append, List.map_cons]
  have keysEq : keysOf (earlier.map fun module => (module.tag, module.names)) =
      heldKeys earlier := by
    rw [keysOf, List.map_map]
    rfl
  have named := follows.named _ _ _ headingsEq
  rw [keysEq] at named
  have distinct : ((heldKeys earlier).map Prod.fst).Nodup := by
    have allDistinct := claimed.distinct
    rw [claimed.claims_eq, split, List.map_append, List.map_append] at allDistinct
    exact (List.nodup_append.mp allDistinct).1
  by_cases free : ∀ other ∈ earlier,
      other.names.clashKey ≠ (TagNames.ofTag module.tag).clashKey
  · exact isNamedAfter_of_free free named
  · push Not at free
    obtain ⟨holder, member, held⟩ := free
    exact isNamedAfter_of_held distinct member held named

end NamedAfter

/-- How the modules of some operations are named. -/
structure NamesFilesApart (defaultTag : String) (operations : List Operation)
    (grouping : Grouping) : Prop where
  tags_nodup : (grouping.modules.map TagModule.tag).Nodup
  mem_tags_iff : ∀ tag, tag ∈ grouping.modules.map TagModule.tag ↔
    ∃ operation ∈ operations, tag ∈ operation.effectiveTags defaultTag
  stems_valid : ∀ module ∈ grouping.modules, Identifier.isValid module.names.fileStem = true
  stems_nodup : (grouping.modules.map fun module => module.names.fileStem.toLower).Nodup
  /-- Wherever a client goes, the file of a module lies in the directory of the modules. -/
  places : ∀ module ∈ grouping.modules, ∀ (code : String) (disk : Command.Disk)
    (directory : String),
    disk.placeOf (FilePath.join directory
      (Command.GeneratedModule.file ⟨module.tag, module.names.fileStem, code⟩).path) =
        disk.placeOf directory ++
          [modulesDirectory, Command.moduleFileName module.names.fileStem]
  named : ∀ earlier module later, grouping.modules = earlier ++ module :: later →
    IsNamedAfter earlier module (grouping.warnings.filter (Warning.isRenamingOf module.tag))
  /-- No other tag is said to be numbered. -/
  renamings : ∀ tag ∉ grouping.modules.map TagModule.tag,
    grouping.warnings.filter (Warning.isRenamingOf tag) = []

theorem mem_tags_ofOperations_iff {known : List String} {defaultTag : String}
    {renamed : List (DeclarationName × String)} {operations : List Operation} {tag : String} :
    tag ∈ (ofOperations known defaultTag renamed operations).modules.map TagModule.tag ↔
      ∃ operation ∈ operations, tag ∈ operation.effectiveTags defaultTag := by
  rw [tags_ofOperations, List.mem_eraseDups]
  simp [placementsOf]

theorem FollowsNaming.isValid_of_mem (follows : grouping.FollowsNaming) {module : TagModule}
    (member : module ∈ grouping.modules) : Identifier.isValid module.names.fileStem = true := by
  have isHeading : (module.tag, module.names) ∈ grouping.headings := List.mem_map_of_mem member
  obtain ⟨earlier, later, split⟩ := List.append_of_mem isHeading
  have named := congrArg Prod.fst (follows.named earlier _ later split)
  have valid := isValid_namesFor (keysOf earlier) module.tag
  rwa [named] at valid

theorem namesFilesApart_ofOperations (known : List String) (defaultTag : String)
    (renamed : List (DeclarationName × String)) (operations : List Operation) :
    NamesFilesApart defaultTag operations
      (ofOperations known defaultTag renamed operations) := by
  have follows := followsNaming_ofOperations known defaultTag renamed operations
  have claimed := claimsKeys_ofOperations known defaultTag renamed operations
  exact {
    tags_nodup := tags_nodup_ofOperations
    mem_tags_iff := fun _ => mem_tags_ofOperations_iff
    stems_valid := fun _ => follows.isValid_of_mem
    stems_nodup := claimed.fileStems_nodup
    places := fun module member _ disk directory =>
      Command.placeOf_file disk directory (follows.isValid_of_mem member)
    named := fun _ _ _ => follows.isNamedAfter claimed
    renamings := fun tag absent => follows.unmet tag (map_fst_headings ▸ absent) }

end Grouping

end TypedClient
