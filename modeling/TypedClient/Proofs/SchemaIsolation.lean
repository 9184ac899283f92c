import TypedClient.Proofs.DtoPoolClosure

/-!
# What a component schema adds to the pool

All that a component schema declares has the schema as its owner, and resolving it looks up
no other declarations. What it adds to the pool, and the warnings it gives, are therefore
the same whatever the others have added before. Of the others only the names matter, and
these as a set.
-/

namespace TypedClient

/-- A run of resolving the schemas of an owner has got as far as one that does not start
from some declarations of other owners. -/
structure Progress.IsBeside (base : List Declaration) (owner : NameOwner)
    (whole part : Progress) : Prop where
  declarations : whole.buffer.declarations = base ++ part.buffer.declarations
  degradations : whole.degradations = part.degradations
  foreign : ∀ declaration ∈ base, declaration.name.owner ≠ owner

namespace Progress.IsBeside

variable {base : List Declaration} {owner : NameOwner} {whole part : Progress}
  {known others : List String}

theorem mem_names_iff (beside : IsBeside base owner whole part) {name : DeclarationName}
    (owned : name.owner = owner) : name ∈ whole.buffer.names ↔ name ∈ part.buffer.names := by
  rw [DeclarationBuffer.names, beside.declarations, List.map_append, List.mem_append]
  refine or_iff_right fun foreign => ?_
  obtain ⟨declaration, inBase, rfl⟩ := List.mem_map.mp foreign
  exact beside.foreign declaration inBase owned

theorem contains_eq (beside : IsBeside base owner whole part) {name : DeclarationName}
    (owned : name.owner = owner) : whole.buffer.contains name = part.buffer.contains name := by
  rw [Bool.eq_iff_iff, DeclarationBuffer.contains_iff, DeclarationBuffer.contains_iff,
    beside.mem_names_iff owned]

theorem degrade (beside : IsBeside base owner whole part) (name : DeclarationName)
    (issue : SchemaIssue) :
    IsBeside base owner (whole.degrade name issue) (part.degrade name issue) :=
  { beside with degradations := congrArg (· ++ _) beside.degradations }

theorem register (beside : IsBeside base owner whole part) {declaration : Declaration}
    (owned : declaration.name.owner = owner) :
    IsBeside base owner (whole.register declaration) (part.register declaration) where
  declarations := by
    simp only [Progress.register]
    by_cases declared : declaration.name ∈ part.buffer.names
    · rw [DeclarationBuffer.register_of_mem declared,
        DeclarationBuffer.register_of_mem ((beside.mem_names_iff owned).mpr declared),
        beside.declarations]
    · have fresh := fun inWhole => declared ((beside.mem_names_iff owned).mp inWhole)
      rw [DeclarationBuffer.declarations_register_of_not_mem declared,
        DeclarationBuffer.declarations_register_of_not_mem fresh, beside.declarations,
        List.append_assoc]
  degradations := beside.degradations
  foreign := beside.foreign

/-- Beside no other declarations, a run is the same run. -/
theorem eq (beside : IsBeside [] owner whole part) : whole = part := by
  obtain ⟨⟨declarations, distinct⟩, degradations⟩ := whole
  obtain ⟨⟨others, othersDistinct⟩, otherDegradations⟩ := part
  obtain rfl : declarations = others := beside.declarations
  obtain rfl : degradations = otherDegradations := beside.degradations
  rfl

end Progress.IsBeside

namespace SchemaNode

variable {base : List Declaration} {owner : NameOwner} {known others : List String}

theorem owner_itemName (name : DeclarationName) : (itemName name).owner = name.owner := by
  unfold itemName
  split <;> rfl

/-- The order of the names of the components does not matter for a reference. -/
theorem resolveReference_congr (sameNames : ∀ schema, schema ∈ known ↔ schema ∈ others)
    (pointer : String) : resolveReference known pointer = resolveReference others pointer := by
  unfold resolveReference
  cases schemaName? pointer with
  | none => rfl
  | some schema => simp only [List.contains_iff_mem, sameNames]

mutual

/-- Resolving gives the same type beside declarations of other owners, and stays beside
them. -/
theorem isBeside_resolve (sameNames : ∀ schema, schema ∈ known ↔ schema ∈ others)
    (node : SchemaNode) {name : DeclarationName} (owned : name.owner = owner)
    {whole part : Progress} (beside : whole.IsBeside base owner part) :
    (node.resolve known name whole).1 = (node.resolve others name part).1 ∧
      (node.resolve known name whole).2.IsBeside base owner (node.resolve others name part).2 := by
  match node with
  | primitive _ | any => exact ⟨rfl, beside⟩
  | object none _ => exact ⟨rfl, beside.degrade name _⟩
  | reference pointer =>
      simp only [resolve, resolveReference_congr sameNames]
      cases resolveReference others pointer with
      | ok type => exact ⟨rfl, beside⟩
      | error issue => exact ⟨rfl, beside.degrade name issue⟩
  | array item =>
      have itemOwned := (owner_itemName name).trans owned
      obtain ⟨sameType, after⟩ := isBeside_resolve sameNames item itemOwned beside
      exact ⟨congrArg TypeExpr.array sameType, after⟩
  | object (some members) required =>
      simp only [resolve, beside.contains_eq owned]
      split
      · exact ⟨rfl, beside⟩
      · obtain ⟨sameProperties, after⟩ :=
          isBeside_resolveMembers sameNames required owned members beside
        refine ⟨rfl, ?_⟩
        rw [sameProperties]
        exact after.register owned

theorem isBeside_resolveMembers (sameNames : ∀ schema, schema ∈ known ↔ schema ∈ others)
    (required : List String) {name : DeclarationName} (owned : name.owner = owner)
    (members : List (String × SchemaNode)) {whole part : Progress}
    (beside : whole.IsBeside base owner part) :
    (resolveMembers known required name members whole).1 =
        (resolveMembers others required name members part).1 ∧
      (resolveMembers known required name members whole).2.IsBeside base owner
        (resolveMembers others required name members part).2 := by
  match members with
  | [] => exact ⟨rfl, beside⟩
  | (key, node) :: rest =>
      have childOwned : (name.child key).owner = owner := owned
      obtain ⟨sameType, afterFirst⟩ := isBeside_resolve sameNames node childOwned beside
      obtain ⟨sameProperties, afterRest⟩ :=
        isBeside_resolveMembers sameNames required owned rest afterFirst
      rw [resolveMembers_cons, resolveMembers_cons]
      simp only [sameType, sameProperties]
      exact ⟨trivial, afterRest⟩

end

/-- The order of the names of the components does not matter for resolving. -/
theorem resolve_congr (sameNames : ∀ schema, schema ∈ known ↔ schema ∈ others)
    (node : SchemaNode) (name : DeclarationName) (progress : Progress) :
    node.resolve known name progress = node.resolve others name progress := by
  have start : progress.IsBeside [] name.owner progress :=
    ⟨rfl, rfl, fun _ member => absurd member List.not_mem_nil⟩
  obtain ⟨sameType, after⟩ := isBeside_resolve sameNames node rfl start
  exact Prod.ext sameType after.eq

end SchemaNode

namespace DtoRegistry

variable {known others : List String} {pool : DeclarationBuffer} {schema : String}
  {schemas : List (String × SchemaNode)} {node : SchemaNode} {declaration : Declaration}

/-- The declarations that a component schema adds to the pool. -/
def contributed (known : List String) (entry : String × SchemaNode) : List Declaration :=
  (addSchema known .empty entry.1 entry.2).buffer.declarations

/-- The warnings of adding a component schema to the pool. -/
def contributedWarnings (known : List String) (entry : String × SchemaNode) : List Warning :=
  (addSchema known .empty entry.1 entry.2).degradations.map
    (Degradation.warning (originOf entry.1))

/-- A component schema is added to a pool as it is to an empty one. -/
theorem isBeside_addSchema (sameNames : ∀ schema, schema ∈ known ↔ schema ∈ others)
    (foreign : ∀ declaration ∈ pool.declarations, declaration.name.owner ≠ .schema schema)
    (node : SchemaNode) :
    (addSchema known pool schema node).IsBeside pool.declarations (.schema schema)
      (addSchema others .empty schema node) := by
  have start : Progress.IsBeside pool.declarations (.schema schema) ⟨pool, []⟩ ⟨.empty, []⟩ :=
    ⟨(List.append_nil _).symm, rfl, foreign⟩
  have rootOwned : (DeclarationName.ofSchema schema).owner = .schema schema := rfl
  obtain ⟨sameType, after⟩ := SchemaNode.isBeside_resolve sameNames node rootOwned start
  simp only [addSchema, declareRoot, sameType, after.contains_eq rootOwned]
  split
  · split
    · exact after
    · exact (after.degrade _ _).register rfl
  · exact after.register rfl

theorem contributed_congr (sameNames : ∀ schema, schema ∈ known ↔ schema ∈ others) :
    contributed known = contributed others ∧
      contributedWarnings known = contributedWarnings others := by
  have sameAddition : ∀ entry : String × SchemaNode,
      addSchema known .empty entry.1 entry.2 = addSchema others .empty entry.1 entry.2 := by
    intro entry
    have beside := @isBeside_addSchema known others .empty entry.1 sameNames
      (fun _ member => absurd member List.not_mem_nil) entry.2
    exact beside.eq
  constructor <;> funext entry
  · rw [contributed, sameAddition, contributed]
  · rw [contributedWarnings, sameAddition, contributedWarnings]

/-- A component schema owns all that it declares. -/
theorem owner_of_mem_contributed {entry : String × SchemaNode}
    (member : declaration ∈ contributed known entry) :
    declaration.name.owner = .schema entry.1 := by
  obtain ⟨added, growth⟩ :=
    @SchemaNode.resolve_growth known entry.2 (.ofSchema entry.1) ⟨.empty, []⟩
  rw [contributed, buffer_addSchema] at member
  rcases DeclarationBuffer.eq_or_mem_of_mem_register member with rfl | resolved
  · rfl
  · rw [growth.extended, List.mem_append] at resolved
    rcases resolved with old | new
    · exact absurd old List.not_mem_nil
    · exact (growth.ofKind declaration new).1.1.2.1

/-- Component schemas of different names are added one after the other. -/
theorem addSchemas_eq (distinct : (schemas.map Prod.fst).Nodup)
    (foreign : ∀ entry ∈ schemas, ∀ declaration ∈ pool.declarations,
      declaration.name.owner ≠ .schema entry.1) :
    (addSchemas known schemas pool).1.declarations =
        pool.declarations ++ schemas.flatMap (contributed known) ∧
      (addSchemas known schemas pool).2 = schemas.flatMap (contributedWarnings known) := by
  induction schemas generalizing pool with
  | nil => exact ⟨(List.append_nil _).symm, rfl⟩
  | cons entry rest ih =>
      obtain ⟨schema, node⟩ := entry
      rw [List.map_cons, List.nodup_cons] at distinct
      have first : (addSchema known pool schema node).IsBeside pool.declarations
          (.schema schema) (addSchema known .empty schema node) :=
        isBeside_addSchema (fun _ => Iff.rfl) (foreign _ List.mem_cons_self) node
      have foreignRest : ∀ entry ∈ rest,
          ∀ declaration ∈ (addSchema known pool schema node).buffer.declarations,
            declaration.name.owner ≠ .schema entry.1 := by
        intro entry entryMem declaration member
        rw [first.declarations, List.mem_append] at member
        rcases member with old | new
        · exact foreign entry (List.mem_cons_of_mem _ entryMem) declaration old
        · rw [@owner_of_mem_contributed known declaration (schema, node) new]
          intro sameOwner
          have inRest : entry.1 ∈ rest.map Prod.fst := List.mem_map_of_mem entryMem
          exact distinct.1 (NameOwner.schema.inj sameOwner ▸ inRest)
      obtain ⟨declarations, warnings⟩ := ih distinct.2 foreignRest
      constructor
      · rw [addSchemas_cons, declarations, first.declarations, List.flatMap_cons,
          List.append_assoc]
        rfl
      · simp only [addSchemas, warnings, first.degradations, List.flatMap_cons]
        rfl

/-- The order of the component schemas is the order of their declarations and warnings. -/
theorem addSchemas_perm {reordered : List (String × SchemaNode)}
    (distinct : (schemas.map Prod.fst).Nodup) (perm : reordered.Perm schemas) :
    (addSchemas (reordered.map Prod.fst) reordered .empty).1.declarations.Perm
        (addSchemas (schemas.map Prod.fst) schemas .empty).1.declarations ∧
      (addSchemas (reordered.map Prod.fst) reordered .empty).2.Perm
        (addSchemas (schemas.map Prod.fst) schemas .empty).2 := by
  have namesPerm := perm.map Prod.fst
  have nothingForeign : ∀ entries : List (String × SchemaNode), ∀ entry ∈ entries,
      ∀ declaration ∈ DeclarationBuffer.empty.declarations,
        declaration.name.owner ≠ .schema entry.1 :=
    fun _ _ _ _ member => absurd member List.not_mem_nil
  obtain ⟨sameDeclarations, sameWarnings⟩ :=
    contributed_congr fun schema => namesPerm.mem_iff (a := schema)
  obtain ⟨declarations, warnings⟩ := @addSchemas_eq (schemas.map Prod.fst) .empty schemas distinct
    (nothingForeign schemas)
  obtain ⟨reorderedDeclarations, reorderedWarnings⟩ :=
    @addSchemas_eq (reordered.map Prod.fst) .empty reordered (namesPerm.nodup_iff.mpr distinct)
      (nothingForeign reordered)
  rw [declarations, warnings, reorderedDeclarations, reorderedWarnings, sameDeclarations,
    sameWarnings]
  exact ⟨(perm.flatMap_right _).append_left _, perm.flatMap_right _⟩

end DtoRegistry

end TypedClient
