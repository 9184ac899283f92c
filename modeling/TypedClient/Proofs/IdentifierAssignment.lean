import TypedClient.Declaration.NameTable
import TypedClient.Proofs.ClaimSettlement
import TypedClient.Proofs.DeclarationBufferGrowth
import Mathlib.Order.Bounds.Defs

/-!
# Which identifiers names get

The names of component schemas are settled roots first. The first claimant of an
identifier finds it free and keeps it; the others get the least number that makes it
free. What is settled for a name stays as it is, so that in the end all names are
written differently.
-/

namespace TypedClient.Disambiguation

/-- The order in which names are settled: roots before nested shapes. -/
def settlingOrder (names : List DeclarationName) : List DeclarationName :=
  names.filter DeclarationName.isRoot ++ names.filter fun name => !name.isRoot

theorem mem_settlingOrder {names : List DeclarationName} {name : DeclarationName} :
    name ∈ settlingOrder names ↔ name ∈ names := by
  cases atRoot : name.isRoot <;> simp [settlingOrder, atRoot]

theorem settlingOrder_perm (names : List DeclarationName) :
    (settlingOrder names).Perm names :=
  List.filter_append_perm _ names

theorem exists_order_of_nested {names : List DeclarationName} {name : DeclarationName}
    (member : name ∈ names) (isNested : name.isRoot = false) :
    ∃ earlier later, settlingOrder names = earlier ++ name :: later ∧
      ∀ root ∈ names, root.isRoot = true → root ∈ earlier := by
  have nestedMem : name ∈ names.filter fun name => !name.isRoot :=
    List.mem_filter.mpr ⟨member, by simp [isNested]⟩
  obtain ⟨front, later, split⟩ := List.append_of_mem nestedMem
  refine ⟨names.filter DeclarationName.isRoot ++ front, later, ?_, ?_⟩
  · rw [settlingOrder, split, List.append_assoc]
  · exact fun root rootMem atRoot => List.mem_append_left _ (List.mem_filter.mpr ⟨rootMem, atRoot⟩)

theorem not_mem_map_fst_of_lookup {table : List (DeclarationName × String)}
    {name : DeclarationName} (unlisted : table.lookup name = none) : name ∉ table.map Prod.fst := by
  intro member
  obtain ⟨entry, entryMem, rfl⟩ := List.mem_map.mp member
  have differs := List.lookup_eq_none_iff.mp unlisted entry entryMem
  simp at differs

section Claims

variable [Text.Conversions]

theorem map_name_filterMap {names : List DeclarationName}
    (owned : ∀ name ∈ names, name.IsSchemaOwned) :
    (names.filterMap Claim.ofName?).map Claim.name = names := by
  induction names with
  | nil => rfl
  | cons name rest ih =>
      obtain ⟨schema, isOwner⟩ := owned name List.mem_cons_self
      have others := ih fun other member => owned other (List.mem_cons_of_mem _ member)
      simp [Claim.ofName?, DeclarationName.defaultIdentifier?, isOwner, others]

/-- Every schema-owned name has a claim, in settling order. -/
theorem map_name_claimsOf {names : List DeclarationName}
    (owned : ∀ name ∈ names, name.IsSchemaOwned) :
    (claimsOf names).map Claim.name = settlingOrder names := by
  have allClaim := map_name_filterMap owned
  have ofRoots : ((names.filterMap Claim.ofName?).filter fun claim => claim.name.isRoot).map
      Claim.name = names.filter DeclarationName.isRoot := by
    conv_rhs => rw [← allClaim, List.filter_map]
    rfl
  have ofNested : ((names.filterMap Claim.ofName?).filter fun claim => !claim.name.isRoot).map
      Claim.name = names.filter fun name => !name.isRoot := by
    conv_rhs => rw [← allClaim, List.filter_map]
    rfl
  rw [claimsOf, List.map_append, ofRoots, ofNested, settlingOrder]

theorem defaultIdentifier?_of_mem_claimsOf {names : List DeclarationName} {claim : Claim}
    (member : claim ∈ claimsOf names) :
    claim.name.defaultIdentifier? = some claim.identifier := by
  have isClaim : claim ∈ names.filterMap Claim.ofName? := by
    rcases List.mem_append.mp member with root | nested
    · exact List.mem_of_mem_filter root
    · exact List.mem_of_mem_filter nested
  obtain ⟨name, _, claims⟩ := List.mem_filterMap.mp isClaim
  obtain ⟨identifier, isDefault, rfl⟩ := Option.map_eq_some_iff.mp claims
  exact isDefault

/-- A name is written with what is settled for its claim. -/
theorem render_ofRenamed {claim : Claim}
    (claims : claim.name.defaultIdentifier? = some claim.identifier) (assignment : Assignment) :
    claim.name.render (.ofRenamed assignment.renamed) = .ok (assignment.identifierOf claim) := by
  unfold DeclarationName.render Assignment.identifierOf
  cases found : assignment.renamed.lookup claim.name with
  | some identifier => simp [NameTable.ofRenamed, found]
  | none =>
      cases isOwner : claim.name.owner with
      | schema schema =>
          simp only [DeclarationName.defaultIdentifier?, isOwner, Option.some.injEq] at claims
          simp only [NameTable.ofRenamed, found, Option.getD_none, claims]
      | operation key => simp [DeclarationName.defaultIdentifier?, isOwner] at claims

theorem exists_claim {names : List DeclarationName}
    (owned : ∀ name ∈ names, name.IsSchemaOwned) {name : DeclarationName}
    (member : name ∈ names) : ∃ claim ∈ claimsOf names, claim.name = name := by
  have inOrder := mem_settlingOrder.mpr member
  rw [← map_name_claimsOf owned] at inOrder
  exact List.mem_map.mp inOrder

theorem mem_identifiers_claimsOf {names : List DeclarationName}
    (owned : ∀ name ∈ names, name.IsSchemaOwned) {identifier : String} :
    identifier ∈ (claimsOf names).map Claim.identifier ↔
      ∃ name ∈ names, name.defaultIdentifier? = some identifier := by
  constructor
  · intro member
    obtain ⟨claim, claimMem, rfl⟩ := List.mem_map.mp member
    have inOrder : claim.name ∈ settlingOrder names :=
      map_name_claimsOf owned ▸ List.mem_map_of_mem claimMem
    exact ⟨claim.name, mem_settlingOrder.mp inOrder, defaultIdentifier?_of_mem_claimsOf claimMem⟩
  · rintro ⟨name, nameMem, isDefault⟩
    obtain ⟨claim, claimMem, rfl⟩ := exists_claim owned nameMem
    have same := (defaultIdentifier?_of_mem_claimsOf claimMem).symm.trans isDefault
    exact Option.some.inj same ▸ List.mem_map_of_mem claimMem

end Claims

section Settling

variable [Text.Conversions] {names : List DeclarationName} {before after : List Claim}
  {claim : Claim}

/-- The assignment after some of the claims of a list of names. -/
def settledTo (names : List DeclarationName) (claims : List Claim) : Assignment :=
  claims.foldl (Assignment.settle ((claimsOf names).map Claim.identifier)) ⟨[], []⟩

def tableOf (names : List DeclarationName) : NameTable :=
  .ofRenamed (renamed names)

/-- The claims of distinct names, some of them settled and the others to come. -/
structure IsSplit (names : List DeclarationName) (before after : List Claim) : Prop where
  distinct : names.Nodup
  owned : ∀ name ∈ names, name.IsSchemaOwned
  claims_eq : claimsOf names = before ++ after

theorem IsSplit.names_nodup (split : IsSplit names before after) :
    ((before ++ after).map Claim.name).Nodup := by
  rw [← split.claims_eq, map_name_claimsOf split.owned]
  exact (settlingOrder_perm names).nodup_iff.mpr split.distinct

theorem IsSplit.hasSettled (split : IsSplit names before after) :
    (settledTo names before).HasSettled ((claimsOf names).map Claim.identifier) before := by
  have distinct := split.names_nodup
  rw [List.map_append] at distinct
  exact (Assignment.hasSettled_nil _).foldl distinct.of_append_left

/-- What is settled for a name stays as it is. -/
theorem IsSplit.lookup_renamed (split : IsSplit names before after) {name : DeclarationName}
    (isSettled : name ∈ before.map Claim.name) :
    (renamed names).lookup name = (settledTo names before).renamed.lookup name := by
  have distinct := split.names_nodup
  rw [List.map_append, List.nodup_append] at distinct
  have absent : name ∉ after.map Claim.name := fun member =>
    distinct.2.2 name isSettled name member rfl
  have all : renamed names = (settledTo names (before ++ after)).renamed := by
    rw [← split.claims_eq]
    rfl
  rw [all, settledTo, List.foldl_append]
  exact Assignment.lookup_foldl_settle absent

theorem IsSplit.render_eq (split : IsSplit names before after) (member : claim ∈ before) :
    claim.name.render (tableOf names) = .ok ((settledTo names before).identifierOf claim) := by
  have isClaim : claim ∈ claimsOf names := split.claims_eq ▸ List.mem_append_left _ member
  have rendered := render_ofRenamed (defaultIdentifier?_of_mem_claimsOf isClaim)
    (settledTo names (claimsOf names))
  have same := split.lookup_renamed (List.mem_map_of_mem member)
  have sameIdentifier : (settledTo names (claimsOf names)).identifierOf claim =
      (settledTo names before).identifierOf claim := by
    unfold Assignment.identifierOf
    rw [← same]
    rfl
  exact rendered.trans (congrArg Except.ok sameIdentifier)

theorem IsSplit.mem_taken_iff (split : IsSplit names before after) {identifier : String} :
    identifier ∈ (settledTo names before).taken ↔
      ∃ name ∈ before.map Claim.name, name.render (tableOf names) = .ok identifier := by
  rw [split.hasSettled.taken_eq, List.mem_reverse]
  constructor
  · intro member
    obtain ⟨claim, claimMem, rfl⟩ := List.mem_map.mp member
    exact ⟨claim.name, List.mem_map_of_mem claimMem, split.render_eq claimMem⟩
  · rintro ⟨name, nameMem, rendered⟩
    obtain ⟨claim, claimMem, rfl⟩ := List.mem_map.mp nameMem
    rw [split.render_eq claimMem] at rendered
    exact Except.ok.inj rendered ▸ List.mem_map_of_mem claimMem

theorem IsSplit.default_mem_taken_iff (split : IsSplit names before (claim :: after)) :
    claim.identifier ∈ (settledTo names before).taken ↔
      ∃ name ∈ before.map Claim.name, name.defaultIdentifier? = some claim.identifier := by
  have isClaim : claim ∈ claimsOf names :=
    split.claims_eq ▸ List.mem_append_right _ List.mem_cons_self
  have ofBefore : ∀ other ∈ before, other.name.defaultIdentifier? = some other.identifier :=
    fun other member => defaultIdentifier?_of_mem_claimsOf
      (split.claims_eq ▸ List.mem_append_left _ member)
  constructor
  · intro member
    have claimed := split.hasSettled.claimed _ member (List.mem_map_of_mem isClaim)
    obtain ⟨other, otherMem, same⟩ := List.mem_map.mp claimed
    exact ⟨other.name, List.mem_map_of_mem otherMem, same ▸ ofBefore other otherMem⟩
  · rintro ⟨name, nameMem, isDefault⟩
    obtain ⟨other, otherMem, rfl⟩ := List.mem_map.mp nameMem
    have same := Option.some.inj ((ofBefore other otherMem).symm.trans isDefault)
    exact same ▸ split.hasSettled.defaultsTaken other otherMem

theorem IsSplit.next (split : IsSplit names before (claim :: after)) :
    IsSplit names (before ++ [claim]) after :=
  ⟨split.distinct, split.owned, by rw [split.claims_eq, List.append_assoc]; rfl⟩

theorem isSplit_all (distinct : names.Nodup) (owned : ∀ name ∈ names, name.IsSchemaOwned) :
    IsSplit names (claimsOf names) [] :=
  ⟨distinct, owned, (List.append_nil _).symm⟩

theorem IsSplit.fresh (split : IsSplit names before (claim :: after)) :
    claim.name ∉ before.map Claim.name := by
  have distinct := split.names_nodup
  rw [List.map_append, List.nodup_append] at distinct
  exact fun member => distinct.2.2 _ member _ List.mem_cons_self rfl

theorem settledTo_concat : settledTo names (before ++ [claim]) =
    (settledTo names before).settle ((claimsOf names).map Claim.identifier) claim := by
  rw [settledTo, List.foldl_append]
  rfl

theorem IsSplit.keeps_default (split : IsSplit names before (claim :: after))
    (unclaimed : ∀ name ∈ before.map Claim.name,
      name.defaultIdentifier? ≠ some claim.identifier) :
    claim.name.render (tableOf names) = .ok claim.identifier ∧
      (renamed names).lookup claim.name = none := by
  have free : claim.identifier ∉ (settledTo names before).taken := by
    intro member
    obtain ⟨name, nameMem, isDefault⟩ := split.default_mem_taken_iff.mp member
    exact unclaimed name nameMem isDefault
  have self : claim ∈ before ++ [claim] := List.mem_append_right _ (List.mem_singleton_self _)
  constructor
  · rw [split.next.render_eq self, settledTo_concat,
      Assignment.identifierOf_settle_of_not_mem split.hasSettled split.fresh free]
  · rw [split.next.lookup_renamed (List.mem_map_of_mem self), settledTo_concat,
      Assignment.settle_of_not_mem free]
    exact split.hasSettled.unlisted _ split.fresh

theorem IsSplit.gets_number (split : IsSplit names before (claim :: after))
    (claimed : ∃ name ∈ before.map Claim.name,
      name.defaultIdentifier? = some claim.identifier) :
    claim.name.render (tableOf names) = .ok ((settledTo names before).numberedFor
      ((claimsOf names).map Claim.identifier) claim) := by
  have isTaken := split.default_mem_taken_iff.mpr claimed
  have self : claim ∈ before ++ [claim] := List.mem_append_right _ (List.mem_singleton_self _)
  rw [split.next.render_eq self, settledTo_concat,
    Assignment.identifierOf_settle_of_mem isTaken]

/-- A number that is free for an identifier: with it, the identifier is the default of
no name, and no earlier name is written with it. -/
structure IsFreeNumber (names earlier : List DeclarationName) (table : NameTable)
    (identifier : String) (number : Nat) : Prop where
  fromTwo : 2 ≤ number
  noDefault : ∀ name ∈ names,
    name.defaultIdentifier? ≠ some (numberedIdentifier identifier number)
  unassigned : ∀ name ∈ earlier,
    name.render table ≠ .ok (numberedIdentifier identifier number)

theorem IsSplit.mem_blocked_iff (split : IsSplit names before after) {identifier : String} :
    identifier ∈ (claimsOf names).map Claim.identifier ++ (settledTo names before).taken ↔
      (∃ name ∈ names, name.defaultIdentifier? = some identifier) ∨
        ∃ name ∈ before.map Claim.name, name.render (tableOf names) = .ok identifier := by
  rw [List.mem_append, mem_identifiers_claimsOf split.owned, split.mem_taken_iff]

theorem IsSplit.isLeast_freeNumber (split : IsSplit names before after) (identifier : String) :
    IsLeast {number | IsFreeNumber names (before.map Claim.name) (tableOf names) identifier number}
      (freeNumber (numberedIdentifier identifier)
        ((claimsOf names).map Claim.identifier ++ (settledTo names before).taken)) := by
  constructor
  · have free : numberedIdentifier identifier (freeNumber (numberedIdentifier identifier)
        ((claimsOf names).map Claim.identifier ++ (settledTo names before).taken)) ∉
          (claimsOf names).map Claim.identifier ++ (settledTo names before).taken :=
      freeNumber_not_mem (numberedIdentifier_injective identifier)
    rw [split.mem_blocked_iff, not_or] at free
    exact ⟨firstNumber_le_freeNumber, fun name member isDefault => free.1 ⟨name, member, isDefault⟩,
      fun name member rendered => free.2 ⟨name, member, rendered⟩⟩
  · intro number isFree
    by_contra passed
    have blocked := mem_of_lt_freeNumber isFree.fromTwo (Nat.lt_of_not_le passed)
    rcases split.mem_blocked_iff.mp blocked with ⟨name, member, isDefault⟩ |
      ⟨name, member, rendered⟩
    · exact isFree.noDefault name member isDefault
    · exact isFree.unassigned name member rendered

/-- Every identifier that blocks a number is taken in the end, one for each name. -/
theorem IsSplit.freeNumber_le (split : IsSplit names before (claim :: after))
    (claimed : ∃ name ∈ before.map Claim.name,
      name.defaultIdentifier? = some claim.identifier) :
    freeNumber (numberedIdentifier claim.identifier)
        ((claimsOf names).map Claim.identifier ++ (settledTo names before).taken) ≤
      names.length + 1 := by
  have everything := isSplit_all split.distinct split.owned
  -- the candidates up to the number itself, whether defaults or assigned early
  have isTaken : ∀ number, firstNumber ≤ number →
      number < freeNumber (numberedIdentifier claim.identifier)
        ((claimsOf names).map Claim.identifier ++ (settledTo names before).taken) + 1 →
      numberedIdentifier claim.identifier number ∈
        (settledTo names (claimsOf names)).taken := by
    intro number least within
    rcases Nat.lt_or_eq_of_le (Nat.le_of_lt_succ within) with passed | rfl
    · rcases List.mem_append.mp (mem_of_lt_freeNumber least passed) with isDefault | early
      · obtain ⟨other, otherMem, same⟩ := List.mem_map.mp isDefault
        exact same ▸ everything.hasSettled.defaultsTaken other otherMem
      · obtain ⟨name, nameMem, rendered⟩ := split.mem_taken_iff.mp early
        refine everything.mem_taken_iff.mpr ⟨name, ?_, rendered⟩
        rw [split.claims_eq, List.map_append]
        exact List.mem_append_left _ nameMem
    · refine everything.mem_taken_iff.mpr ⟨claim.name, ?_, split.gets_number claimed⟩
      rw [split.claims_eq, List.map_append]
      exact List.mem_append_right _ List.mem_cons_self
  have bound := le_length_of_blocked (numberedIdentifier_injective claim.identifier) isTaken
  have count : (settledTo names (claimsOf names)).taken.length = names.length := by
    rw [everything.hasSettled.taken_eq, List.length_reverse, List.length_map]
    have lengths := congrArg List.length (map_name_claimsOf split.owned)
    rw [List.length_map] at lengths
    exact lengths.trans (settlingOrder_perm names).length_eq
  rw [count] at bound
  exact Nat.le_of_succ_le_succ bound

end Settling

section Spec

variable [Text.Conversions] {names earlier later : List DeclarationName} {name : DeclarationName}
  {identifier : String}

/-- A place in the settling order is a place among the claims. -/
theorem exists_isSplit (distinct : names.Nodup) (owned : ∀ name ∈ names, name.IsSchemaOwned)
    (order : settlingOrder names = earlier ++ name :: later) :
    ∃ before claim after, IsSplit names before (claim :: after) ∧
      before.map Claim.name = earlier ∧ claim.name = name ∧
        name.defaultIdentifier? = some claim.identifier := by
  rw [← map_name_claimsOf owned] at order
  obtain ⟨before, rest, claimsEq, isEarlier, isRest⟩ := List.map_eq_append_iff.mp order
  obtain ⟨claim, after, rfl, rfl, _⟩ := List.map_eq_cons_iff.mp isRest
  have isClaim : claim ∈ claimsOf names :=
    claimsEq ▸ List.mem_append_right _ List.mem_cons_self
  exact ⟨before, claim, after, ⟨distinct, owned, claimsEq⟩, isEarlier, rfl,
    defaultIdentifier?_of_mem_claimsOf isClaim⟩

theorem first_keeps (distinct : names.Nodup) (owned : ∀ name ∈ names, name.IsSchemaOwned)
    (order : settlingOrder names = earlier ++ name :: later)
    (isDefault : name.defaultIdentifier? = some identifier)
    (unclaimed : ∀ other ∈ earlier, other.defaultIdentifier? ≠ some identifier) :
    name.render (tableOf names) = .ok identifier ∧ name ∉ (renamed names).map Prod.fst := by
  obtain ⟨before, claim, after, split, rfl, rfl, claims⟩ := exists_isSplit distinct owned order
  cases Option.some.inj (isDefault.symm.trans claims)
  obtain ⟨rendered, unlisted⟩ := split.keeps_default unclaimed
  exact ⟨rendered, not_mem_map_fst_of_lookup unlisted⟩

theorem later_numbered (distinct : names.Nodup) (owned : ∀ name ∈ names, name.IsSchemaOwned)
    (order : settlingOrder names = earlier ++ name :: later)
    (isDefault : name.defaultIdentifier? = some identifier)
    (claimed : ∃ other ∈ earlier, other.defaultIdentifier? = some identifier) :
    ∃ number ≤ names.length + 1,
      IsLeast {number | IsFreeNumber names earlier (tableOf names) identifier number} number ∧
        name.render (tableOf names) = .ok (numberedIdentifier identifier number) := by
  obtain ⟨before, claim, after, split, rfl, rfl, claims⟩ := exists_isSplit distinct owned order
  cases Option.some.inj (isDefault.symm.trans claims)
  exact ⟨_, split.freeNumber_le claimed, split.isLeast_freeNumber _, split.gets_number claimed⟩

theorem exists_render_eq_ok_tableOf (distinct : names.Nodup)
    (owned : ∀ name ∈ names, name.IsSchemaOwned) (member : name ∈ names) :
    ∃ identifier, name.render (tableOf names) = .ok identifier := by
  obtain ⟨claim, claimMem, rfl⟩ := exists_claim owned member
  exact ⟨_, (isSplit_all distinct owned).render_eq claimMem⟩

theorem render_tableOf_injective (distinct : names.Nodup)
    (owned : ∀ name ∈ names, name.IsSchemaOwned) {other : DeclarationName}
    (member : name ∈ names) (otherMember : other ∈ names)
    (same : name.render (tableOf names) = other.render (tableOf names)) : name = other := by
  have everything := isSplit_all distinct owned
  obtain ⟨claim, claimMem, rfl⟩ := exists_claim owned member
  obtain ⟨second, secondMem, rfl⟩ := exists_claim owned otherMember
  rw [everything.render_eq claimMem, everything.render_eq secondMem] at same
  have apart := everything.hasSettled.distinct
  rw [everything.hasSettled.taken_eq, List.nodup_reverse] at apart
  exact congrArg Claim.name
    (List.inj_on_of_nodup_map apart claimMem secondMem (Except.ok.inj same))

/-- A nested shape never gets the default identifier of a root. -/
theorem render_nested_ne (distinct : names.Nodup)
    (owned : ∀ name ∈ names, name.IsSchemaOwned) {root : DeclarationName}
    (rootMember : root ∈ names) (atRoot : root.isRoot = true) (member : name ∈ names)
    (isNested : name.isRoot = false) (rootDefault : root.defaultIdentifier? = some identifier) :
    name.render (tableOf names) ≠ .ok identifier := by
  obtain ⟨earlier, later, order, rootsEarlier⟩ := exists_order_of_nested member isNested
  obtain ⟨_, claim, _, _, _, _, isDefault⟩ := exists_isSplit distinct owned order
  by_cases claimed : ∃ other ∈ earlier, other.defaultIdentifier? = some claim.identifier
  · obtain ⟨number, _, isLeast, rendered⟩ := later_numbered distinct owned order isDefault claimed
    intro same
    cases Except.ok.inj (rendered.symm.trans same)
    exact isLeast.1.noDefault root rootMember rootDefault
  · push Not at claimed
    have kept := (first_keeps distinct owned order isDefault claimed).1
    intro same
    cases Except.ok.inj (kept.symm.trans same)
    exact claimed root (rootsEarlier root rootMember atRoot) rootDefault

theorem not_mem_renamed_of_unique (distinct : names.Nodup)
    (owned : ∀ name ∈ names, name.IsSchemaOwned) (member : name ∈ names)
    (unique : ∀ other ∈ names,
      other.defaultIdentifier? = name.defaultIdentifier? → other = name) :
    name ∉ (renamed names).map Prod.fst := by
  obtain ⟨earlier, later, order⟩ := List.append_of_mem (mem_settlingOrder.mpr member)
  obtain ⟨_, claim, _, _, _, _, isDefault⟩ := exists_isSplit distinct owned order
  have orderDistinct := (settlingOrder_perm names).nodup_iff.mpr distinct
  rw [order, List.nodup_append] at orderDistinct
  refine (first_keeps distinct owned order isDefault fun other otherMem sameDefault => ?_).2
  have inNames : other ∈ names :=
    mem_settlingOrder.mp (order ▸ List.mem_append_left _ otherMem)
  have isName := unique other inNames (sameDefault.trans isDefault.symm)
  exact orderDistinct.2.2 other otherMem name List.mem_cons_self isName

end Spec

/-- A table that writes every name of a list with an identifier of its own, and lets the
first claimant of a default identifier keep it. -/
structure KeepsApart [Text.Conversions] (names : List DeclarationName) (table : NameTable) :
    Prop where
  rendered : ∀ name ∈ names, ∃ identifier, name.render table = .ok identifier
  injective : ∀ first ∈ names, ∀ second ∈ names,
    first.render table = second.render table → first = second
  firstKeeps : ∀ earlier name later identifier,
    settlingOrder names = earlier ++ name :: later →
    name.defaultIdentifier? = some identifier →
    (∀ other ∈ earlier, other.defaultIdentifier? ≠ some identifier) →
      name.render table = .ok identifier ∧ name ∉ table.renamed.map Prod.fst
  laterNumbered : ∀ earlier name later identifier,
    settlingOrder names = earlier ++ name :: later →
    name.defaultIdentifier? = some identifier →
    (∃ other ∈ earlier, other.defaultIdentifier? = some identifier) →
      ∃ number ≤ names.length + 1,
        IsLeast {number | IsFreeNumber names earlier table identifier number} number ∧
          name.render table = .ok (numberedIdentifier identifier number)
  rootsKeep : ∀ root ∈ names, root.isRoot = true → ∀ nested ∈ names, nested.isRoot = false →
    ∀ identifier, root.defaultIdentifier? = some identifier →
      nested.render table ≠ .ok identifier
  uniqueUnlisted : ∀ name ∈ names,
    (∀ other ∈ names, other.defaultIdentifier? = name.defaultIdentifier? → other = name) →
      name ∉ table.renamed.map Prod.fst

/-- Distinct names of component schemas are kept apart. -/
theorem renamed_keepsApart [Text.Conversions] (names : List DeclarationName)
    (distinct : names.Nodup) (owned : ∀ name ∈ names, name.IsSchemaOwned) :
    KeepsApart names (.ofRenamed (renamed names)) where
  rendered := fun _ member => exists_render_eq_ok_tableOf distinct owned member
  injective := fun _ member _ otherMember =>
    render_tableOf_injective distinct owned member otherMember
  firstKeeps := fun _ _ _ _ => first_keeps distinct owned
  laterNumbered := fun _ _ _ _ => later_numbered distinct owned
  rootsKeep := fun _ rootMember atRoot _ member isNested _ =>
    render_nested_ne distinct owned rootMember atRoot member isNested
  uniqueUnlisted := fun _ => not_mem_renamed_of_unique distinct owned

section Sample

attribute [local instance] Text.Conversions.unchanged

/-- Components of which three have one default identifier, and the fourth has the one
that the second of them would get. -/
def sampleNames : List DeclarationName :=
  ["a-b", "a_b", "a.b", "a_b_2"].map DeclarationName.ofSchema

theorem renamed_keepsApart_sample :
    sampleNames.Nodup ∧ (∀ name ∈ sampleNames, name.IsSchemaOwned) ∧
      (DeclarationName.ofSchema "a-b").render (.ofRenamed (renamed sampleNames)) =
        .ok "Dto_a_b" ∧
      ∃ number ≤ 5, (DeclarationName.ofSchema "a_b").render
        (.ofRenamed (renamed sampleNames)) = .ok (numberedIdentifier "Dto_a_b" number) := by
  have distinct : sampleNames.Nodup := by decide
  have owned : ∀ name ∈ sampleNames, name.IsSchemaOwned := by
    intro name member
    obtain ⟨schema, _, rfl⟩ := List.mem_map.mp member
    exact ⟨schema, rfl⟩
  have keepsApart := renamed_keepsApart sampleNames distinct owned
  have first := keepsApart.firstKeeps [] _ _ "Dto_a_b" rfl rfl (by simp)
  have second := keepsApart.laterNumbered [.ofSchema "a-b"] _ _ "Dto_a_b" rfl rfl
    ⟨_, List.mem_cons_self, rfl⟩
  obtain ⟨number, bound, _, rendered⟩ := second
  exact ⟨distinct, owned, first.1, number, bound, rendered⟩

end Sample

end TypedClient.Disambiguation
