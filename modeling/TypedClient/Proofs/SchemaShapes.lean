import TypedClient.Proofs.SchemaOutline
import TypedClient.Proofs.SchemaResolutionGrowth

/-!
# The object shapes of a schema

A schema under a name has a shape for every object with a property map in it. Each
is named by the property keys that lead to it, so that no two share a name. Resolved
into a buffer that holds nothing below its name, a schema declares exactly its
shapes, and through them its type has the outline of the schema.
-/

namespace TypedClient

/-- An object with a property map, under the name of its interface. -/
structure ObjectShape where
  name : DeclarationName
  members : List (String × SchemaNode)
  required : List String

/-- The interface of a shape: its properties in their order, optional unless they are
listed as required. -/
def ObjectShape.declaration (known : List String) (shape : ObjectShape) : Declaration :=
  ⟨shape.name, .interface
    (SchemaNode.propertiesUnder known shape.required shape.name shape.members)⟩

namespace SchemaNode

mutual

/-- The property lists of the schema are maps: none repeats a key. -/
def KeysDistinct : SchemaNode → Prop
  | array item => item.KeysDistinct
  | object (some members) _ => (members.map Prod.fst).Nodup ∧ MembersKeysDistinct members
  | primitive _ | object none _ | reference _ | any => True

def MembersKeysDistinct : List (String × SchemaNode) → Prop
  | [] => True
  | (_, node) :: rest => node.KeysDistinct ∧ MembersKeysDistinct rest

end

mutual

/-- The shapes of a schema under a name, inner ones first. A property key leads to the
shape below it; array layers add no key, but for `item` directly below a root. -/
def shapesUnder : SchemaNode → DeclarationName → List ObjectShape
  | array item, name => item.shapesUnder (itemName name)
  | object (some members) required, name =>
      memberShapes members name ++ [⟨name, members, required⟩]
  | primitive _, _ | object none _, _ | reference _, _ | any, _ => []

def memberShapes : List (String × SchemaNode) → DeclarationName → List ObjectShape
  | [], _ => []
  | (key, node) :: rest, owner => node.shapesUnder (owner.child key) ++ memberShapes rest owner

end

/-- The shapes strictly inside a schema. -/
def nestedShapes : SchemaNode → DeclarationName → List ObjectShape
  | array item, name => item.shapesUnder (itemName name)
  | object (some members) _, name => memberShapes members name
  | primitive _, _ | object none _, _ | reference _, _ | any, _ => []

mutual

theorem isBelow_of_mem_shapesUnder {node : SchemaNode} {name : DeclarationName}
    {shape : ObjectShape} (member : shape ∈ node.shapesUnder name) : shape.name.IsBelow name := by
  match node with
  | primitive _ | object none _ | reference _ | any => exact absurd member List.not_mem_nil
  | array item =>
      have inItem : shape ∈ item.shapesUnder (itemName name) := member
      exact (isBelow_of_mem_shapesUnder inItem).trans (itemName_isBelow name)
  | object (some members) required =>
      rcases List.mem_append.mp member with inner | self
      · obtain ⟨key, _, below⟩ := isBelow_of_mem_memberShapes inner
        exact below.trans (DeclarationName.child_isBelow name key)
      · rw [List.mem_singleton.mp self]
        exact .refl name

theorem isBelow_of_mem_memberShapes {members : List (String × SchemaNode)}
    {owner : DeclarationName} {shape : ObjectShape} (member : shape ∈ memberShapes members owner) :
    ∃ key ∈ members.map Prod.fst, shape.name.IsBelow (owner.child key) := by
  match members with
  | [] => exact absurd member List.not_mem_nil
  | (key, node) :: rest =>
      rcases List.mem_append.mp member with first | later
      · exact ⟨key, List.mem_cons_self, isBelow_of_mem_shapesUnder first⟩
      · obtain ⟨other, otherMem, below⟩ := isBelow_of_mem_memberShapes later
        exact ⟨other, List.mem_cons_of_mem _ otherMem, below⟩

end

theorem isBelow_of_mem_nestedShapes {node : SchemaNode} {name : DeclarationName}
    {shape : ObjectShape} (member : shape ∈ node.nestedShapes name) : shape.name.IsBelow name := by
  match node with
  | primitive _ | object none _ | reference _ | any => exact absurd member List.not_mem_nil
  | array item =>
      have inItem : shape ∈ item.shapesUnder (itemName name) := member
      exact (isBelow_of_mem_shapesUnder inItem).trans (itemName_isBelow name)
  | object (some members) _ =>
      obtain ⟨key, _, below⟩ := isBelow_of_mem_memberShapes member
      exact below.trans (DeclarationName.child_isBelow name key)

/-- A schema that is no object shape has all its shapes inside. -/
theorem shapesUnder_eq_nestedShapes {node : SchemaNode}
    (noShape : ∀ members required, node ≠ object (some members) required)
    (name : DeclarationName) : node.shapesUnder name = node.nestedShapes name := by
  cases node with
  | object members required =>
      cases members with
      | none => rfl
      | some members => exact absurd rfl (noShape members required)
  | _ => rfl

/-- Below a root, the shapes inside a schema have names of their own. -/
theorem ne_of_mem_nestedShapes {node : SchemaNode} {name : DeclarationName}
    {shape : ObjectShape} (atRoot : name.isRoot = true)
    (member : shape ∈ node.nestedShapes name) : shape.name ≠ name := by
  match node with
  | primitive _ | object none _ | reference _ | any => exact absurd member List.not_mem_nil
  | array item =>
      have inItem : shape ∈ item.shapesUnder (itemName name) := member
      rw [itemName, if_pos atRoot] at inItem
      exact (isBelow_of_mem_shapesUnder inItem).ne_of_child
  | object (some members) _ =>
      obtain ⟨key, _, below⟩ := isBelow_of_mem_memberShapes member
      exact below.ne_of_child

end SchemaNode

/-- Nothing in a buffer is at or below a name. -/
def DeclarationBuffer.IsFreshBelow (buffer : DeclarationBuffer) (name : DeclarationName) : Prop :=
  ∀ other ∈ buffer.names, ¬ other.IsBelow name

namespace DeclarationBuffer

variable {known : List String} {before after : DeclarationBuffer} {name root : DeclarationName}

theorem IsFreshBelow.not_mem (fresh : before.IsFreshBelow name) : name ∉ before.names :=
  fun declared => fresh name declared (.refl name)

theorem IsFreshBelow.ofIsBelow (fresh : before.IsFreshBelow root) (below : name.IsBelow root) :
    before.IsFreshBelow name :=
  fun other declared otherBelow => fresh other declared (otherBelow.trans below)

theorem mem_names_of_shapes {shapes : List ObjectShape}
    (extended : after.declarations =
      before.declarations ++ shapes.map (ObjectShape.declaration known)) :
    name ∈ after.names ↔ name ∈ before.names ∨ ∃ shape ∈ shapes, shape.name = name := by
  simp only [mem_names_of_extended extended, List.mem_map, exists_exists_and_eq_and,
    ObjectShape.declaration]

/-- The shapes below one property leave the branches of other properties free. -/
theorem forall_isFreshBelow_of_sibling {owner : DeclarationName} {key : String}
    {others : List String} {node : SchemaNode} (isNew : key ∉ others)
    (fresh : ∀ other ∈ key :: others, before.IsFreshBelow (owner.child other))
    (extended : after.declarations = before.declarations ++
      (node.shapesUnder (owner.child key)).map (ObjectShape.declaration known)) :
    ∀ other ∈ others, after.IsFreshBelow (owner.child other) := by
  intro other otherMem name declared below
  rcases (mem_names_of_shapes extended).mp declared with old | ⟨shape, inNode, rfl⟩
  · exact fresh other (List.mem_cons_of_mem _ otherMem) name old below
  · have same := (SchemaNode.isBelow_of_mem_shapesUnder inNode).key_unique below
    exact isNew (same ▸ otherMem)

end DeclarationBuffer

namespace SchemaNode

variable (known : List String)

mutual

/-- Where nothing is declared below its name, a schema declares its shapes. -/
theorem declarations_resolve (node : SchemaNode) (keysDistinct : node.KeysDistinct)
    (name : DeclarationName) {progress : Progress} (fresh : progress.buffer.IsFreshBelow name) :
    (node.resolve known name progress).2.buffer.declarations =
      progress.buffer.declarations ++
        (node.shapesUnder name).map (ObjectShape.declaration known) := by
  match node with
  | primitive _ | object none _ | any => exact (List.append_nil _).symm
  | reference pointer =>
      simp only [resolve, shapesUnder]
      cases resolveReference known pointer <;> exact (List.append_nil _).symm
  | array item =>
      exact declarations_resolve item keysDistinct (itemName name)
        (fresh.ofIsBelow (itemName_isBelow name))
  | object (some members) required =>
      have undeclared := DeclarationBuffer.contains_iff.not.mpr fresh.not_mem
      have inner := declarations_resolveMembers required members keysDistinct.1 keysDistinct.2 name
        fun key _ => fresh.ofIsBelow (DeclarationName.child_isBelow name key)
      have stillFresh : name ∉
          (resolveMembers known required name members progress).2.buffer.names := by
        rw [DeclarationBuffer.mem_names_of_shapes inner]
        rintro (old | ⟨shape, inMembers, isName⟩)
        · exact fresh.not_mem old
        · obtain ⟨key, _, below⟩ := isBelow_of_mem_memberShapes inMembers
          exact below.ne_of_child isName
      simp only [resolve, if_neg undeclared, Progress.register, fst_resolveMembers, shapesUnder,
        List.map_append, ← List.append_assoc, ← inner]
      exact DeclarationBuffer.declarations_register_of_not_mem stillFresh

theorem declarations_resolveMembers (required : List String)
    (members : List (String × SchemaNode)) (distinct : (members.map Prod.fst).Nodup)
    (keysDistinct : MembersKeysDistinct members) (owner : DeclarationName) {progress : Progress}
    (fresh : ∀ key ∈ members.map Prod.fst, progress.buffer.IsFreshBelow (owner.child key)) :
    (resolveMembers known required owner members progress).2.buffer.declarations =
      progress.buffer.declarations ++
        (memberShapes members owner).map (ObjectShape.declaration known) := by
  match members with
  | [] => exact (List.append_nil _).symm
  | (key, node) :: rest =>
      rw [List.map_cons, List.nodup_cons] at distinct
      have first := declarations_resolve node keysDistinct.1 (owner.child key)
        (fresh key List.mem_cons_self)
      have others := declarations_resolveMembers required rest distinct.2 keysDistinct.2 owner
        (DeclarationBuffer.forall_isFreshBelow_of_sibling distinct.1 fresh first)
      rw [resolveMembers_cons, others, first, memberShapes, List.map_append, List.append_assoc]

end

variable {known} {declarations : List Declaration}

theorem child_ne_ofSchema (name : DeclarationName) (key schema : String) :
    name.child key ≠ .ofSchema schema := by
  intro equal
  have keys := congrArg DeclarationName.keys equal
  simp [DeclarationName.child, DeclarationName.ofSchema] at keys

theorem itemName_ne_ofSchema {name : DeclarationName}
    (notComponent : ∀ schema, name ≠ .ofSchema schema) (schema : String) :
    itemName name ≠ .ofSchema schema := by
  unfold itemName
  split
  · exact child_ne_ofSchema name itemKey schema
  · exact notComponent schema

/-- Only a reference to a component has a name for its type. -/
theorem typeUnder_reference (pointer : String) (name : DeclarationName) :
    (reference pointer).typeUnder known name =
      match schemaName? pointer with
      | some schema => if schema ∈ known then .named (.ofSchema schema) else .any
      | none => .any := by
  unfold typeUnder resolveReference
  cases schemaName? pointer with
  | none => rfl
  | some schema => by_cases isKnown : schema ∈ known <;> simp [isKnown]

theorem unfolds_reference (pointer : String) (name : DeclarationName) :
    Unfolds declarations (.typeAlias ((reference pointer).typeUnder known name))
      (referenceOutline known pointer) := by
  rw [typeUnder_reference, referenceOutline]
  cases schemaName? pointer with
  | none => exact .any
  | some schema =>
      by_cases isKnown : schema ∈ known
      · simp only [if_pos isKnown]
        exact .component schema
      · simp only [if_neg isKnown]
        exact .any

mutual

/-- Where the shapes of a schema are declared, its type has its outline. -/
theorem unfolds_typeUnder (node : SchemaNode) {name : DeclarationName}
    (notComponent : ∀ schema, name ≠ .ofSchema schema)
    (declared : ∀ shape ∈ node.shapesUnder name, shape.declaration known ∈ declarations) :
    Unfolds declarations (.typeAlias (node.typeUnder known name)) (node.outline known) := by
  match node with
  | primitive kind => exact .primitive kind
  | any | object none _ => exact .any
  | reference pointer => exact unfolds_reference pointer name
  | array item => exact .array (unfolds_typeUnder item (itemName_ne_ofSchema notComponent) declared)
  | object (some members) required =>
      have self : (⟨name, members, required⟩ : ObjectShape).declaration known ∈ declarations :=
        declared _ (List.mem_append_right _ (List.mem_singleton_self _))
      have inner := unfolds_propertiesUnder members required name fun shape member =>
        declared shape (List.mem_append_left _ member)
      exact .declared notComponent self inner

theorem unfolds_propertiesUnder (members : List (String × SchemaNode)) (required : List String)
    (owner : DeclarationName)
    (declared : ∀ shape ∈ memberShapes members owner, shape.declaration known ∈ declarations) :
    Unfolds declarations (.interface (propertiesUnder known required owner members))
      (.object (membersOutline known required members)) := by
  match members with
  | [] => exact .noMembers
  | (key, node) :: rest =>
      have first := unfolds_typeUnder node (child_ne_ofSchema owner key) fun shape member =>
        declared shape (List.mem_append_left _ member)
      have others := unfolds_propertiesUnder rest required owner fun shape member =>
        declared shape (List.mem_append_right _ member)
      exact .member first others

end

end SchemaNode

end TypedClient
