import TypedClient.Schema.Resolution
import TypedClient.Proofs.DeclarationBufferGrowth
import TypedClient.Proofs.DeclarationReachability

/-!
# What resolving a schema adds to a buffer

Whatever a buffer holds, resolving a schema only adds declarations to it, and all
of them serve the type that comes back. Every name in that type or in an added
declaration is declared afterwards or belongs to a component schema. The type
itself does not depend on the buffer.
-/

namespace TypedClient

/-- A name that is declared or that belongs to a component schema. -/
def DeclarationBuffer.Covers (buffer : DeclarationBuffer) (known : List String)
    (name : DeclarationName) : Prop :=
  name ∈ buffer.names ∨ ∃ schema ∈ known, name = .ofSchema schema

/-- Some types are resolved while declarations of a kind are added to a buffer. The
types and the added declarations refer to covered names alone, and every added
declaration is needed for the types. -/
structure Growth (known : List String) (kind : Declaration → Prop) (types : List TypeExpr)
    (before : DeclarationBuffer) (added : List Declaration) (after : DeclarationBuffer) :
    Prop where
  extended : after.declarations = before.declarations ++ added
  ofKind : ∀ declaration ∈ added, kind declaration
  typesCovered : ∀ name ∈ namesIn types, after.Covers known name
  addedCovered : ∀ declaration ∈ added, ∀ name ∈ declaration.references,
    after.Covers known name
  needed : ∀ declaration ∈ added, Needed added (namesIn types) declaration.name

namespace Growth

variable {known : List String} {kind other : Declaration → Prop}
  {types others : List TypeExpr} {before middle after : DeclarationBuffer}
  {added more : List Declaration}

theorem names_eq (growth : Growth known kind types before added after) :
    after.names = before.names ++ added.map Declaration.name := by
  simp [DeclarationBuffer.names, growth.extended]

theorem subset (growth : Growth known kind types before added after) :
    before.declarations ⊆ after.declarations :=
  growth.extended ▸ List.subset_append_left _ _

theorem covers (growth : Growth known kind types before added after)
    {name : DeclarationName} (covered : before.Covers known name) :
    after.Covers known name := by
  rcases covered with declared | component
  · exact Or.inl (by simp [growth.names_eq, declared])
  · exact Or.inr component

theorem forall_names (growth : Growth known kind types before added after)
    {property : DeclarationName → Prop} (old : ∀ name ∈ before.names, property name)
    (new : ∀ declaration, kind declaration → property declaration.name) :
    ∀ name ∈ after.names, property name := by
  intro name member
  rw [growth.names_eq, List.mem_append] at member
  rcases member with early | late
  · exact old name early
  · obtain ⟨declaration, isAdded, rfl⟩ := List.mem_map.mp late
    exact new declaration (growth.ofKind declaration isAdded)

theorem not_mem_names (growth : Growth known kind types before added after)
    {name : DeclarationName} (fresh : name ∉ before.names)
    (avoids : ∀ declaration, kind declaration → declaration.name ≠ name) : name ∉ after.names := by
  have apart : ∀ other ∈ after.names, other ≠ name :=
    growth.forall_names (fun other old isName => fresh (isName ▸ old)) avoids
  exact fun declared => apart name declared rfl

/-- Types of covered names need no new declaration. -/
theorem unchanged (covered : ∀ name ∈ namesIn types, before.Covers known name) :
    Growth known kind types before [] before where
  extended := (List.append_nil _).symm
  ofKind := by simp
  typesCovered := covered
  addedCovered := by simp
  needed := by simp

theorem weaken (growth : Growth known kind types before added after)
    (implies : ∀ declaration, kind declaration → other declaration) :
    Growth known other types before added after :=
  { growth with
    ofKind := fun declaration member => implies declaration (growth.ofKind declaration member) }

/-- The types matter only for the names they hold. -/
theorem congrTypes (growth : Growth known kind types before added after)
    (sameNames : namesIn types = namesIn others) :
    Growth known kind others before added after :=
  { growth with
    typesCovered := sameNames ▸ growth.typesCovered
    needed := sameNames ▸ growth.needed }

theorem followedBy (first : Growth known kind types before added middle)
    (second : Growth known kind others middle more after) :
    Growth known kind (types ++ others) before (added ++ more) after where
  extended := by rw [second.extended, first.extended, List.append_assoc]
  ofKind := by
    intro declaration member
    rcases List.mem_append.mp member with early | late
    · exact first.ofKind declaration early
    · exact second.ofKind declaration late
  typesCovered := by
    intro name member
    rcases mem_namesIn_append.mp member with early | late
    · exact second.covers (first.typesCovered name early)
    · exact second.typesCovered name late
  addedCovered := by
    intro declaration member name refers
    rcases List.mem_append.mp member with early | late
    · exact second.covers (first.addedCovered declaration early name refers)
    · exact second.addedCovered declaration late name refers
  needed := by
    intro declaration member
    rcases List.mem_append.mp member with early | late
    · exact (first.needed declaration early).mono (List.subset_append_left _ _)
        fun _ root => mem_namesIn_append.mpr (Or.inl root)
    · exact (second.needed declaration late).mono (List.subset_append_right _ _)
        fun _ root => mem_namesIn_append.mpr (Or.inr root)

/-- Declaring a fresh name for the types: from then on the name alone is needed. -/
theorem declare {name : DeclarationName} {body : DeclarationBody}
    (growth : Growth known kind body.types before added after)
    (fresh : name ∉ after.names) (isKind : kind ⟨name, body⟩) :
    Growth known kind [.named name] before (added ++ [⟨name, body⟩])
      (after.register ⟨name, body⟩) where
  extended := by
    rw [DeclarationBuffer.declarations_register_of_not_mem fresh, growth.extended,
      List.append_assoc]
  ofKind := by
    intro declaration member
    rcases List.mem_append.mp member with early | new
    · exact growth.ofKind declaration early
    · rw [List.mem_singleton.mp new]
      exact isKind
  typesCovered := by
    intro other member
    exact Or.inl (DeclarationBuffer.mem_names_register.mpr (Or.inr (mem_namesIn_named.mp member)))
  addedCovered := by
    have grown : ∀ other, after.Covers known other →
        (after.register ⟨name, body⟩).Covers known other := by
      rintro other (declared | component)
      · exact Or.inl (DeclarationBuffer.mem_names_register.mpr (Or.inl declared))
      · exact Or.inr component
    intro declaration member other refers
    rcases List.mem_append.mp member with early | new
    · exact grown other (growth.addedCovered declaration early other refers)
    · rw [List.mem_singleton.mp new] at refers
      exact grown other (growth.typesCovered other refers)
  needed := by
    have nameNeeded : Needed (added ++ [⟨name, body⟩]) (namesIn [.named name]) name :=
      .root (mem_namesIn_named.mpr rfl)
    intro declaration member
    rcases List.mem_append.mp member with early | new
    · -- what the types need is needed through the new declaration
      refine (growth.needed declaration early).trans (List.subset_append_left _ _) ?_
      intro reference refers
      exact @Needed.reference _ _ ⟨name, body⟩ _ nameNeeded
        (List.mem_append_right _ (List.mem_singleton_self _)) refers
    · rw [List.mem_singleton.mp new]
      exact nameNeeded

end Growth

/-- An interface at or below a name. -/
def Declaration.IsShapeBelow (root : DeclarationName) (declaration : Declaration) : Prop :=
  declaration.name.IsBelow root ∧ ∃ properties, declaration.body = .interface properties

namespace SchemaNode

/-- The type of a schema under a name, whatever is declared already. -/
def typeUnder (known : List String) : SchemaNode → DeclarationName → TypeExpr
  | primitive kind, _ => .primitive kind
  | array item, name => .array (item.typeUnder known (itemName name))
  | object none _, _ => .any
  | object (some _) _, name => .named name
  | reference pointer, _ =>
      match resolveReference known pointer with
      | .ok type => type
      | .error _ => .any
  | any, _ => .any

/-- The properties of an object shape under a name. -/
def propertiesUnder (known required : List String) (owner : DeclarationName)
    (members : List (String × SchemaNode)) : List Property :=
  members.map fun (key, node) =>
    ⟨key, node.typeUnder known (owner.child key), !required.contains key⟩

variable {known : List String}

theorem fst_resolve (node : SchemaNode) (name : DeclarationName) (progress : Progress) :
    (node.resolve known name progress).1 = node.typeUnder known name := by
  match node with
  | primitive _ | any | object none _ => rfl
  | reference pointer =>
      simp only [resolve, typeUnder]
      cases resolveReference known pointer <;> rfl
  | array item => exact congrArg TypeExpr.array (fst_resolve item _ _)
  | object (some members) required =>
      simp only [resolve, typeUnder]
      split <;> rfl

theorem resolveMembers_cons {required : List String} {owner : DeclarationName} {key : String}
    {node : SchemaNode} {rest : List (String × SchemaNode)} {progress : Progress} :
    resolveMembers known required owner ((key, node) :: rest) progress =
      let first := node.resolve known (owner.child key) progress
      let others := resolveMembers known required owner rest first.2
      (⟨key, first.1, !required.contains key⟩ :: others.1, others.2) :=
  rfl

theorem fst_resolveMembers (required : List String) (owner : DeclarationName)
    (members : List (String × SchemaNode)) (progress : Progress) :
    (resolveMembers known required owner members progress).1 =
      propertiesUnder known required owner members := by
  induction members generalizing progress with
  | nil => rfl
  | cons member rest ih =>
      obtain ⟨key, node⟩ := member
      rw [resolveMembers_cons]
      simp only [fst_resolve, ih]
      rfl

theorem itemName_isBelow (name : DeclarationName) : (itemName name).IsBelow name := by
  unfold itemName
  split
  · exact DeclarationName.child_isBelow name itemKey
  · exact DeclarationName.IsBelow.refl name

/-- A reference is covered by the component that it names. -/
theorem covered_of_resolveReference {pointer : String} {type : TypeExpr}
    (resolved : resolveReference known pointer = .ok type) :
    ∃ schema ∈ known, type = .named (.ofSchema schema) := by
  unfold resolveReference at resolved
  split at resolved
  · contradiction
  · rename_i schema _
    split at resolved
    · rename_i contained
      exact ⟨schema, List.contains_iff_mem.mp contained, (Except.ok.inj resolved).symm⟩
    · contradiction

/-- An interface that a schema can add under a name. The name itself is declared only
if the type of the schema is made of it. -/
def IsShapeOf (known : List String) (node : SchemaNode) (name : DeclarationName)
    (declaration : Declaration) : Prop :=
  declaration.IsShapeBelow name ∧
    (declaration.name = name → (node.typeUnder known name).element = .named name)

theorem isShapeOf_array {item : SchemaNode} {name : DeclarationName}
    {declaration : Declaration} (shape : item.IsShapeOf known (itemName name) declaration) :
    (array item).IsShapeOf known name declaration := by
  refine ⟨⟨shape.1.1.trans (itemName_isBelow name), shape.1.2⟩, ?_⟩
  intro isName
  by_cases atRoot : name.isRoot = true
  · -- below a root the items have a name of their own
    have below := shape.1.1
    rw [itemName, if_pos atRoot] at below
    exact absurd isName below.ne_of_child
  · have sameName : itemName name = name := if_neg atRoot
    rw [sameName] at shape
    rw [typeUnder, TypeExpr.element, sameName]
    exact shape.2 isName

mutual

/-- Resolving adds shapes of the schema, all of them needed for the type that comes
back. -/
theorem resolve_growth (node : SchemaNode) (name : DeclarationName) (progress : Progress) :
    ∃ added, Growth known (node.IsShapeOf known name) [node.typeUnder known name]
      progress.buffer added (node.resolve known name progress).2.buffer := by
  match node with
  | primitive _ | any | object none _ =>
      exact ⟨[], .unchanged (by simp [namesIn, typeUnder, TypeExpr.name?])⟩
  | reference pointer =>
      simp only [resolve, typeUnder]
      cases resolved : resolveReference known pointer with
      | error issue => exact ⟨[], .unchanged (by simp [namesIn, TypeExpr.name?])⟩
      | ok type =>
          obtain ⟨schema, schemaKnown, rfl⟩ := covered_of_resolveReference resolved
          refine ⟨[], .unchanged ?_⟩
          intro name member
          exact Or.inr ⟨schema, schemaKnown, mem_namesIn_named.mp member⟩
  | array item =>
      obtain ⟨added, growth⟩ := resolve_growth item (itemName name) progress
      have widened := growth.weaken fun _ => @isShapeOf_array known item name _
      exact ⟨added, widened.congrTypes (namesIn_congr rfl)⟩
  | object (some members) required =>
      simp only [resolve, typeUnder]
      by_cases declared : progress.buffer.contains name = true
      · rw [if_pos declared]
        refine ⟨[], .unchanged ?_⟩
        intro other member
        rw [mem_namesIn_named.mp member]
        exact Or.inl (DeclarationBuffer.contains_iff.mp declared)
      · rw [if_neg declared]
        obtain ⟨added, growth⟩ := resolveMembers_growth required name members progress
        have fresh := growth.not_mem_names
          (fun old => declared (DeclarationBuffer.contains_iff.mpr old)) fun _ shape => shape.2
        refine ⟨_, Growth.declare (growth.weaken fun declaration shape =>
          ⟨shape.1, fun isName => absurd isName shape.2⟩) fresh ?_⟩
        exact ⟨⟨.refl name, _, rfl⟩, fun _ => rfl⟩

/-- The members of a shape add shapes strictly below it. -/
theorem resolveMembers_growth (required : List String) (owner : DeclarationName)
    (members : List (String × SchemaNode)) (progress : Progress) :
    ∃ added, Growth known (fun declaration =>
        declaration.IsShapeBelow owner ∧ declaration.name ≠ owner)
      ((resolveMembers known required owner members progress).1.map Property.type)
      progress.buffer added
      (resolveMembers known required owner members progress).2.buffer := by
  match members with
  | [] => exact ⟨[], .unchanged (by simp [namesIn, resolveMembers])⟩
  | (key, node) :: rest =>
      obtain ⟨added, growth⟩ := resolve_growth node (owner.child key) progress
      obtain ⟨more, others⟩ := resolveMembers_growth required owner rest
        (node.resolve known (owner.child key) progress).2
      have nested : Growth known (fun declaration =>
          declaration.IsShapeBelow owner ∧ declaration.name ≠ owner) _ _ added _ :=
        growth.weaken fun declaration shape =>
          ⟨⟨shape.1.1.trans (DeclarationName.child_isBelow owner key), shape.1.2⟩,
            shape.1.1.ne_of_child⟩
      have both := nested.followedBy others
      rw [resolveMembers_cons]
      simp only [List.map_cons, fst_resolve]
      exact ⟨added ++ more, both⟩

end

end SchemaNode

end TypedClient
