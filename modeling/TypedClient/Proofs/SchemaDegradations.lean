import TypedClient.Proofs.SchemaShapes

/-!
# Which parts of a schema are degraded

Every node of a schema has a place, named by the keys that lead to it. Resolved where
nothing is declared below its name, a schema leaves one degradation for each object without
a property map and for each reference that names no component, in the order of the nodes
and at their places. Apart from these nodes, only untyped ones are typed as `any`.
-/

namespace TypedClient

/-- A node of a schema under the name of its place. -/
structure PlacedNode where
  name : DeclarationName
  node : SchemaNode

namespace SchemaNode

/-- What is wrong with a reference that names no component. -/
def referenceIssue? (known : List String) (pointer : String) : Option SchemaIssue :=
  match schemaName? pointer with
  | none => some (.foreignReference pointer)
  | some schema => if schema ∈ known then none else some (.danglingReference pointer)

/-- What is wrong with a node that has a form and still no type. -/
def issue? (known : List String) : SchemaNode → Option SchemaIssue
  | object none _ => some .unusableProperties
  | reference pointer => referenceIssue? known pointer
  | primitive _ | array _ | object (some _) _ | any => none

mutual

/-- The nodes of a schema under a name, each one before those inside it. Items of an array
have the place of the array, but for `item` directly below a root. -/
def nodesUnder : SchemaNode → DeclarationName → List PlacedNode
  | array item, name => ⟨name, array item⟩ :: item.nodesUnder (itemName name)
  | object (some members) required, name =>
      ⟨name, object (some members) required⟩ :: memberNodes members name
  | primitive kind, name => [⟨name, primitive kind⟩]
  | object none required, name => [⟨name, object none required⟩]
  | reference pointer, name => [⟨name, reference pointer⟩]
  | any, name => [⟨name, any⟩]

def memberNodes : List (String × SchemaNode) → DeclarationName → List PlacedNode
  | [], _ => []
  | (key, node) :: rest, owner => node.nodesUnder (owner.child key) ++ memberNodes rest owner

end

/-- The node below the array layers of a schema. -/
def coreUnder : SchemaNode → DeclarationName → PlacedNode
  | array item, name => item.coreUnder (itemName name)
  | primitive kind, name => ⟨name, primitive kind⟩
  | object members required, name => ⟨name, object members required⟩
  | reference pointer, name => ⟨name, reference pointer⟩
  | any, name => ⟨name, any⟩

end SchemaNode

namespace PlacedNode

def degradation? (known : List String) (placed : PlacedNode) : Option Degradation :=
  (placed.node.issue? known).map (Degradation.mk placed.name.keys)

def warning? (known : List String) (origin : String) (placed : PlacedNode) : Option Warning :=
  (placed.node.issue? known).map (Warning.schemaDegraded origin placed.name.keys)

end PlacedNode

namespace SchemaNode

variable {known : List String}

theorem resolveReference_cases (known : List String) (pointer : String) :
    (∃ schema, resolveReference known pointer = .ok (.named (.ofSchema schema)) ∧
      referenceIssue? known pointer = none) ∨
    ∃ issue, resolveReference known pointer = .error issue ∧
      referenceIssue? known pointer = some issue := by
  unfold resolveReference referenceIssue?
  cases schemaName? pointer with
  | none => exact Or.inr ⟨_, rfl, rfl⟩
  | some schema =>
      by_cases isKnown : schema ∈ known
      · exact Or.inl ⟨schema, by simp [isKnown]⟩
      · exact Or.inr ⟨.danglingReference pointer, by simp [isKnown]⟩

mutual

/-- Where nothing is declared below its name, a schema leaves the degradations of its
nodes. -/
theorem degradations_resolve (node : SchemaNode) (keysDistinct : node.KeysDistinct)
    (name : DeclarationName) {progress : Progress} (fresh : progress.buffer.IsFreshBelow name) :
    (node.resolve known name progress).2.degradations =
      progress.degradations ++
        (node.nodesUnder name).filterMap (PlacedNode.degradation? known) := by
  match node with
  | primitive _ | any => exact (List.append_nil _).symm
  | object none _ => rfl
  | reference pointer =>
      rcases resolveReference_cases known pointer with
        ⟨schema, resolved, noIssue⟩ | ⟨issue, refused, isIssue⟩
      · simp [resolve, resolved, nodesUnder, PlacedNode.degradation?, issue?, noIssue]
      · simp [resolve, refused, nodesUnder, PlacedNode.degradation?, issue?, isIssue,
          Progress.degrade]
  | array item =>
      exact degradations_resolve item keysDistinct (itemName name)
        (fresh.ofIsBelow (itemName_isBelow name))
  | object (some members) required =>
      have undeclared := DeclarationBuffer.contains_iff.not.mpr fresh.not_mem
      have inner := degradations_resolveMembers required members keysDistinct.1 keysDistinct.2 name
        fun key _ => fresh.ofIsBelow (DeclarationName.child_isBelow name key)
      rw [resolve, if_neg undeclared]
      exact inner

theorem degradations_resolveMembers (required : List String)
    (members : List (String × SchemaNode)) (distinct : (members.map Prod.fst).Nodup)
    (keysDistinct : MembersKeysDistinct members) (owner : DeclarationName) {progress : Progress}
    (fresh : ∀ key ∈ members.map Prod.fst, progress.buffer.IsFreshBelow (owner.child key)) :
    (resolveMembers known required owner members progress).2.degradations =
      progress.degradations ++
        (memberNodes members owner).filterMap (PlacedNode.degradation? known) := by
  match members with
  | [] => exact (List.append_nil _).symm
  | (key, node) :: rest =>
      rw [List.map_cons, List.nodup_cons] at distinct
      have declared := declarations_resolve known node keysDistinct.1 (owner.child key)
        (fresh key List.mem_cons_self)
      -- the shapes of the first member are named below its own key
      have freshRest :=
        DeclarationBuffer.forall_isFreshBelow_of_sibling distinct.1 fresh declared
      have first := degradations_resolve node keysDistinct.1 (owner.child key)
        (fresh key List.mem_cons_self)
      have others := degradations_resolveMembers required rest distinct.2 keysDistinct.2 owner
        freshRest
      rw [resolveMembers_cons, others, first, memberNodes, List.filterMap_append,
        List.append_assoc]

end

theorem coreUnder_mem_nodesUnder (node : SchemaNode) (name : DeclarationName) :
    node.coreUnder name ∈ node.nodesUnder name := by
  match node with
  | primitive _ | object none _ | reference _ | any => exact List.mem_singleton_self _
  | object (some _) _ => exact List.mem_cons_self
  | array item => exact List.mem_cons_of_mem _ (coreUnder_mem_nodesUnder item (itemName name))

theorem name_coreUnder {name : DeclarationName} (nested : name.isRoot = false)
    (node : SchemaNode) : (node.coreUnder name).name = name := by
  match node with
  | primitive _ | object _ _ | reference _ | any => rfl
  | array item =>
      -- array layers add a key at a root only
      have sameName : itemName name = name := if_neg (by simp [nested])
      rw [coreUnder, sameName]
      exact name_coreUnder nested item

mutual

/-- The nodes inside a member of a shape are nodes of the schema. -/
theorem nodesUnder_subset_of_mem_shapesUnder {node : SchemaNode} {name : DeclarationName}
    {shape : ObjectShape} (inSchema : shape ∈ node.shapesUnder name) :
    memberNodes shape.members shape.name ⊆ node.nodesUnder name := by
  match node with
  | primitive _ | object none _ | reference _ | any => exact absurd inSchema List.not_mem_nil
  | array item =>
      have inItem : shape ∈ item.shapesUnder (itemName name) := inSchema
      exact List.subset_cons_of_subset _ (nodesUnder_subset_of_mem_shapesUnder inItem)
  | object (some members) required =>
      rcases List.mem_append.mp inSchema with inner | self
      · exact List.subset_cons_of_subset _ (memberNodes_subset_of_mem_memberShapes inner)
      · rw [List.mem_singleton.mp self]
        exact List.subset_cons_self _ _

theorem memberNodes_subset_of_mem_memberShapes {members : List (String × SchemaNode)}
    {owner : DeclarationName} {shape : ObjectShape}
    (inMembers : shape ∈ memberShapes members owner) :
    memberNodes shape.members shape.name ⊆ memberNodes members owner := by
  match members with
  | [] => exact absurd inMembers List.not_mem_nil
  | (key, node) :: rest =>
      rcases List.mem_append.mp inMembers with first | later
      · exact List.subset_append_of_subset_left _ (nodesUnder_subset_of_mem_shapesUnder first)
      · exact List.subset_append_of_subset_right _ (memberNodes_subset_of_mem_memberShapes later)

end

theorem nodesUnder_subset_memberNodes {members : List (String × SchemaNode)}
    {member : String × SchemaNode} (isMember : member ∈ members) (owner : DeclarationName) :
    member.2.nodesUnder (owner.child member.1) ⊆ memberNodes members owner := by
  induction members with
  | nil => exact absurd isMember List.not_mem_nil
  | cons first rest ih =>
      rcases List.mem_cons.mp isMember with rfl | later
      · exact List.subset_append_left _ _
      · exact List.subset_append_of_subset_right _ (ih later)

/-- A type is an `any`, in array layers, exactly if the node below the layers is untyped or
has an issue. -/
theorem element_typeUnder_eq_any_iff {node : SchemaNode} {name : DeclarationName} :
    (node.typeUnder known name).element = .any ↔
      (node.coreUnder name).node = any ∨
        ∃ issue, (node.coreUnder name).node.issue? known = some issue := by
  match node with
  | primitive _ | object (some _) _ => simp [typeUnder, TypeExpr.element, coreUnder, issue?]
  | object none _ | any => simp [typeUnder, TypeExpr.element, coreUnder, issue?]
  | reference pointer =>
      rcases resolveReference_cases known pointer with
        ⟨schema, resolved, noIssue⟩ | ⟨issue, refused, isIssue⟩
      · simp [typeUnder, resolved, TypeExpr.element, coreUnder, issue?, noIssue]
      · simp [typeUnder, refused, TypeExpr.element, coreUnder, issue?, isIssue]
  | array item => exact @element_typeUnder_eq_any_iff item (itemName name)

end SchemaNode

/-- An `any` is accounted for by a node that is untyped or has one of some warnings. -/
def PlacedNode.AccountsForAny (known : List String) (origin : String) (warnings : List Warning)
    (placed : PlacedNode) : Prop :=
  placed.node = .any ∨ ∃ warning ∈ warnings, placed.warning? known origin = some warning

namespace SchemaNode

/-- The warnings of the nodes of a schema, in the order of the nodes. -/
def warningsUnder (known : List String) (origin : String) (node : SchemaNode)
    (name : DeclarationName) : List Warning :=
  (node.nodesUnder name).filterMap (PlacedNode.warning? known origin)

theorem map_warning_degradations (known : List String) (origin : String) (node : SchemaNode)
    (name : DeclarationName) :
    ((node.nodesUnder name).filterMap (PlacedNode.degradation? known)).map
        (Degradation.warning origin) = node.warningsUnder known origin name := by
  rw [List.map_filterMap]
  refine List.filterMap_congr fun placed _ => ?_
  rw [PlacedNode.degradation?, PlacedNode.warning?, Option.map_map]
  rfl

/-- The node below the array layers of an `any` accounts for it, if it is a node of the whole
schema. -/
theorem accountsForAny_of_element_eq_any {known : List String} {whole node : SchemaNode}
    {root name : DeclarationName} (isPart : node.nodesUnder name ⊆ whole.nodesUnder root)
    (isAny : (node.typeUnder known name).element = .any) (origin : String) :
    node.coreUnder name ∈ whole.nodesUnder root ∧
      (node.coreUnder name).AccountsForAny known origin
        (whole.warningsUnder known origin root) := by
  have inWhole := isPart (coreUnder_mem_nodesUnder node name)
  refine ⟨inWhole, (element_typeUnder_eq_any_iff.mp isAny).imp id ?_⟩
  rintro ⟨issue, isIssue⟩
  have isWarning : (node.coreUnder name).warning? known origin =
      some (.schemaDegraded origin (node.coreUnder name).name.keys issue) := by
    rw [PlacedNode.warning?, isIssue, Option.map_some]
  exact ⟨_, List.mem_filterMap.mpr ⟨_, inWhole, isWarning⟩, isWarning⟩

/-- Where nothing is declared below its name, a schema leaves exactly the warnings of its
nodes, in their order. In the type and in the added declarations, every `any` belongs to an
untyped node or to a node with one of these warnings. -/
theorem resolve_degradesVisibly (known : List String) (node : SchemaNode)
    (keysDistinct : node.KeysDistinct) (name : DeclarationName) (progress : Progress)
    (fresh : progress.buffer.IsFreshBelow name) (origin : String) :
    (node.resolve known name progress).2.degradations.map (Degradation.warning origin) =
        progress.degradations.map (Degradation.warning origin) ++
          node.warningsUnder known origin name ∧
      ((node.resolve known name progress).1.element = .any →
        node.coreUnder name ∈ node.nodesUnder name ∧
        (node.coreUnder name).AccountsForAny known origin
          (node.warningsUnder known origin name)) ∧
      ∃ added, (node.resolve known name progress).2.buffer.declarations =
          progress.buffer.declarations ++ added ∧
        ∀ declaration ∈ added, ∃ properties, declaration.body = .interface properties ∧
          ∀ property ∈ properties, property.type.element = .any →
            ∃ placed ∈ node.nodesUnder name,
              placed.name = declaration.name.child property.name ∧
              placed.AccountsForAny known origin (node.warningsUnder known origin name) := by
  refine ⟨?warnings, ?inType, _, declarations_resolve known node keysDistinct name fresh,
    ?inDeclarations⟩
  case warnings =>
    rw [degradations_resolve node keysDistinct name fresh, List.map_append,
      map_warning_degradations]
  case inType =>
    rw [fst_resolve]
    exact fun isAny => accountsForAny_of_element_eq_any (List.Subset.refl _) isAny origin
  case inDeclarations =>
    intro declaration declared
    obtain ⟨shape, inSchema, rfl⟩ := List.mem_map.mp declared
    refine ⟨_, rfl, fun property isProperty isAny => ?_⟩
    -- the property belongs to a member of a shape, whose nodes are nodes of the schema
    obtain ⟨member, isMember, rfl⟩ := List.mem_map.mp isProperty
    have isPart := List.Subset.trans (nodesUnder_subset_memberNodes isMember shape.name)
      (nodesUnder_subset_of_mem_shapesUnder inSchema)
    obtain ⟨inWhole, accounts⟩ := accountsForAny_of_element_eq_any isPart isAny origin
    have atMember := @name_coreUnder (shape.name.child member.1)
      (by simp [DeclarationName.isRoot, DeclarationName.child]) member.2
    exact ⟨_, inWhole, atMember, accounts⟩

/-- A list of objects, with parts of all kinds that cannot be typed. -/
def reportNode : SchemaNode :=
  .array (.object (some [
    ("tags", .array (.array (.object none []))),
    ("note", .any),
    ("owner", .reference "#/components/schemas/Missing"),
    ("site", .object (some [("map", .reference "maps.yaml#/Map")]) [])]) ["tags"])

theorem resolve_degradesVisibly_report :
    reportNode.KeysDistinct ∧ DeclarationBuffer.empty.IsFreshBelow (.ofSchema "Report") ∧
      (reportNode.resolve ["Report"] (.ofSchema "Report") ⟨.empty, []⟩).2.degradations.map
          (Degradation.warning "schema 'Report'") =
        [.schemaDegraded "schema 'Report'" ["item", "tags"] .unusableProperties,
          .schemaDegraded "schema 'Report'" ["item", "owner"]
            (.danglingReference "#/components/schemas/Missing"),
          .schemaDegraded "schema 'Report'" ["item", "site", "map"]
            (.foreignReference "maps.yaml#/Map")] := by
  have keysDistinct : reportNode.KeysDistinct := by
    simp [reportNode, KeysDistinct, MembersKeysDistinct]
  have fresh : DeclarationBuffer.empty.IsFreshBelow (.ofSchema "Report") :=
    fun _ declared => absurd declared List.not_mem_nil
  refine ⟨keysDistinct, fresh, ?_⟩
  rw [(resolve_degradesVisibly ["Report"] reportNode keysDistinct _ ⟨.empty, []⟩ fresh
    "schema 'Report'").1]
  rfl

end SchemaNode

end TypedClient
