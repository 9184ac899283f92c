import TypedClient.Proofs.SchemaShapes

/-!
# Resolving into a buffer that is in use

Resolving a schema keeps what a buffer holds and adds shapes of the schema after it. A
shape whose name is taken is passed over with everything inside it. Still, every name in
the type or in an added declaration is declared afterwards, unless it stands for a
reference, and so nothing is left to add when the schema is resolved again.
-/

namespace TypedClient

/-- A reference below any number of array layers. -/
def SchemaNode.IsReference : SchemaNode → Prop
  | array item => item.IsReference
  | reference _ => True
  | primitive _ | object _ _ | any => False

/-- The name in the type of a schema is declared, unless it stands for a reference. -/
def DeclarationBuffer.DeclaresShape (buffer : DeclarationBuffer) (known : List String)
    (node : SchemaNode) (name : DeclarationName) : Prop :=
  ∀ used ∈ namesIn [node.typeUnder known name], node.IsReference ∨ used ∈ buffer.names

/-- The types of the members of a shape hold declared names and those of references. -/
def DeclarationBuffer.DeclaresMembers (buffer : DeclarationBuffer) (known : List String)
    (owner : DeclarationName) (members : List (String × SchemaNode)) : Prop :=
  ∀ member ∈ members, buffer.DeclaresShape known member.2 (owner.child member.1)

/-- Some of the candidates are added to a buffer, in their order, and the types of their
members can be looked up afterwards. -/
structure AddsShapes (known : List String) (candidates : List ObjectShape)
    (before : DeclarationBuffer) (added : List ObjectShape) (after : DeclarationBuffer) :
    Prop where
  declarations_eq : after.declarations =
    before.declarations ++ added.map (ObjectShape.declaration known)
  sublist : added.Sublist candidates
  membersDeclared : ∀ shape ∈ added, after.DeclaresMembers known shape.name shape.members

namespace DeclarationBuffer

variable {known : List String} {buffer larger : DeclarationBuffer} {node : SchemaNode}
  {name : DeclarationName}

theorem DeclaresShape.mono (declares : buffer.DeclaresShape known node name)
    (subset : buffer.names ⊆ larger.names) : larger.DeclaresShape known node name :=
  fun used member => (declares used member).imp id (subset ·)

theorem DeclaresMembers.mono {members : List (String × SchemaNode)}
    (declares : buffer.DeclaresMembers known name members)
    (subset : buffer.names ⊆ larger.names) : larger.DeclaresMembers known name members :=
  fun member isMember => (declares member isMember).mono subset

theorem declaresShape_of_nameless (nameless : namesIn [node.typeUnder known name] = []) :
    buffer.DeclaresShape known node name :=
  fun _ member => absurd (nameless ▸ member) List.not_mem_nil

theorem declaresShape_array_iff {item : SchemaNode} :
    buffer.DeclaresShape known (.array item) name ↔
      buffer.DeclaresShape known item (SchemaNode.itemName name) := by
  have sameNames : namesIn [(SchemaNode.array item).typeUnder known name] =
      namesIn [item.typeUnder known (SchemaNode.itemName name)] := namesIn_congr rfl
  rw [DeclaresShape, DeclaresShape, sameNames]
  rfl

theorem declaresShape_object_iff {members : List (String × SchemaNode)}
    {required : List String} :
    buffer.DeclaresShape known (.object (some members) required) name ↔ name ∈ buffer.names := by
  constructor
  · intro declares
    exact (declares name (mem_namesIn_named.mpr rfl)).resolve_left id
  · intro declared used member
    rw [mem_namesIn_named.mp member]
    exact Or.inr declared

end DeclarationBuffer

namespace AddsShapes

variable {known : List String} {candidates others : List ObjectShape}
  {before middle after : DeclarationBuffer} {added more : List ObjectShape}

theorem subset_names (adds : AddsShapes known candidates before added after) :
    before.names ⊆ after.names :=
  fun _ member => (DeclarationBuffer.mem_names_of_shapes adds.declarations_eq).mpr (Or.inl member)

theorem nothing (buffer : DeclarationBuffer) : AddsShapes known candidates buffer [] buffer where
  declarations_eq := (List.append_nil _).symm
  sublist := List.nil_sublist _
  membersDeclared := fun _ member => absurd member List.not_mem_nil

theorem followedBy (first : AddsShapes known candidates before added middle)
    (second : AddsShapes known others middle more after) :
    AddsShapes known (candidates ++ others) before (added ++ more) after where
  declarations_eq := by
    rw [second.declarations_eq, first.declarations_eq, List.map_append, List.append_assoc]
  sublist := first.sublist.append second.sublist
  membersDeclared := by
    intro shape member
    rcases List.mem_append.mp member with early | late
    · exact (first.membersDeclared shape early).mono second.subset_names
    · exact second.membersDeclared shape late

theorem declare {shape : ObjectShape} (adds : AddsShapes known candidates before added after)
    (fresh : shape.name ∉ after.names)
    (membersDeclared : after.DeclaresMembers known shape.name shape.members) :
    AddsShapes known (candidates ++ [shape]) before (added ++ [shape])
      (after.register (shape.declaration known)) := by
  have grown : after.names ⊆ (after.register (shape.declaration known)).names :=
    fun _ member => DeclarationBuffer.mem_names_register.mpr (Or.inl member)
  refine ⟨?declarations_eq, adds.sublist.append (List.Sublist.refl _), ?membersDeclared⟩
  case declarations_eq =>
    have registered := @DeclarationBuffer.declarations_register_of_not_mem after
      (shape.declaration known) fresh
    rw [registered, adds.declarations_eq, List.map_append, List.append_assoc]
    rfl
  case membersDeclared =>
    intro other member
    rcases List.mem_append.mp member with early | new
    · exact (adds.membersDeclared other early).mono grown
    · rw [List.mem_singleton.mp new]
      exact membersDeclared.mono grown

theorem not_mem_names {name : DeclarationName}
    (adds : AddsShapes known candidates before added after) (fresh : name ∉ before.names)
    (avoids : ∀ shape ∈ candidates, shape.name ≠ name) : name ∉ after.names := by
  rw [DeclarationBuffer.mem_names_of_shapes adds.declarations_eq]
  rintro (old | ⟨shape, isAdded, isName⟩)
  · exact fresh old
  · exact avoids shape (adds.sublist.subset isAdded) isName

end AddsShapes

namespace SchemaNode

variable {known : List String}

theorem buffer_resolve_reference (pointer : String) (name : DeclarationName)
    (progress : Progress) :
    ((reference pointer).resolve known name progress).2.buffer = progress.buffer := by
  simp only [resolve]
  cases resolveReference known pointer <;> rfl

mutual

/-- Whatever is declared already, resolving adds shapes of the schema and leaves the type
declared. -/
theorem resolve_addsShapes (node : SchemaNode) (name : DeclarationName) (progress : Progress) :
    ∃ added, AddsShapes known (node.shapesUnder name) progress.buffer added
        (node.resolve known name progress).2.buffer ∧
      (node.resolve known name progress).2.buffer.DeclaresShape known node name := by
  match node with
  | primitive _ | any | object none _ =>
      exact ⟨[], .nothing _, DeclarationBuffer.declaresShape_of_nameless rfl⟩
  | reference pointer =>
      rw [buffer_resolve_reference]
      exact ⟨[], .nothing _, fun _ _ => Or.inl trivial⟩
  | array item =>
      obtain ⟨added, adds, declares⟩ := resolve_addsShapes item (itemName name) progress
      exact ⟨added, adds, DeclarationBuffer.declaresShape_array_iff.mpr declares⟩
  | object (some members) required =>
      simp only [resolve, DeclarationBuffer.declaresShape_object_iff]
      by_cases declared : progress.buffer.contains name = true
      · -- whatever has the name, the shape is passed over with all inside it
        rw [if_pos declared]
        exact ⟨[], .nothing _, DeclarationBuffer.contains_iff.mp declared⟩
      · rw [if_neg declared]
        obtain ⟨added, adds, membersDeclared⟩ :=
          resolveMembers_addsShapes required name members progress
        -- the members are named strictly below, so that the name is still free
        have fresh := adds.not_mem_names
          (fun old => declared (DeclarationBuffer.contains_iff.mpr old)) fun shape member => by
            obtain ⟨_, _, below⟩ := isBelow_of_mem_memberShapes member
            exact below.ne_of_child
        rw [fst_resolveMembers]
        exact ⟨_, adds.declare fresh membersDeclared,
          DeclarationBuffer.mem_names_register.mpr (Or.inr rfl)⟩

theorem resolveMembers_addsShapes (required : List String) (owner : DeclarationName)
    (members : List (String × SchemaNode)) (progress : Progress) :
    ∃ added, AddsShapes known (memberShapes members owner) progress.buffer added
        (resolveMembers known required owner members progress).2.buffer ∧
      (resolveMembers known required owner members progress).2.buffer.DeclaresMembers known owner
        members := by
  match members with
  | [] => exact ⟨[], .nothing _, fun _ member => absurd member List.not_mem_nil⟩
  | (key, node) :: rest =>
      obtain ⟨added, adds, declares⟩ := resolve_addsShapes node (owner.child key) progress
      obtain ⟨more, addsRest, declaresRest⟩ := resolveMembers_addsShapes required owner rest
        (node.resolve known (owner.child key) progress).2
      rw [resolveMembers_cons]
      refine ⟨added ++ more, adds.followedBy addsRest, fun member isMember => ?_⟩
      rcases List.mem_cons.mp isMember with rfl | later
      · exact declares.mono addsRest.subset_names
      · exact declaresRest member later

end

/-- A schema whose type is declared adds nothing. -/
theorem buffer_resolve_of_declares {node : SchemaNode} {name : DeclarationName}
    {progress : Progress} (declares : progress.buffer.DeclaresShape known node name) :
    (node.resolve known name progress).2.buffer = progress.buffer := by
  match node with
  | primitive _ | any | object none _ => rfl
  | reference pointer => exact buffer_resolve_reference pointer name progress
  | array item =>
      have itemUnchanged := @buffer_resolve_of_declares item (itemName name) progress
        (DeclarationBuffer.declaresShape_array_iff.mp declares)
      exact itemUnchanged
  | object (some members) required =>
      have declared := DeclarationBuffer.declaresShape_object_iff.mp declares
      rw [resolve, if_pos (DeclarationBuffer.contains_iff.mpr declared)]

/-- Resolving a schema, whatever is declared already: the type depends on the schema alone,
what is declared stays and new shapes below the name come after it, no name is left open but
those of references, and resolving again, then or later, adds nothing. -/
theorem resolve_additive (known : List String) (node : SchemaNode) (name : DeclarationName)
    (progress : Progress) :
    (∀ other, (node.resolve known name other).1 = node.typeUnder known name) ∧
      (∃ added : List ObjectShape,
        (node.resolve known name progress).2.buffer.declarations =
          progress.buffer.declarations ++ added.map (ObjectShape.declaration known) ∧
        added.Sublist (node.shapesUnder name) ∧
        ∀ shape ∈ added, (shape.declaration known).IsShapeBelow name ∧
          (node.resolve known name progress).2.buffer.DeclaresMembers known shape.name
            shape.members) ∧
      (node.resolve known name progress).2.buffer.DeclaresShape known node name ∧
      ∀ later : Progress,
        (node.resolve known name progress).2.buffer.names ⊆ later.buffer.names →
          (node.resolve known name later).2.buffer = later.buffer := by
  obtain ⟨added, adds, declares⟩ := @resolve_addsShapes known node name progress
  refine ⟨fun other => fst_resolve node name other,
    ⟨added, adds.declarations_eq, adds.sublist, fun shape member => ?_⟩, declares,
    fun later subset => buffer_resolve_of_declares (declares.mono subset)⟩
  have isBelow := isBelow_of_mem_shapesUnder (adds.sublist.subset member)
  exact ⟨⟨isBelow, _, rfl⟩, adds.membersDeclared shape member⟩

/-- A component with two nested shapes. -/
def orderNode : SchemaNode :=
  .object (some [("lines", .array (.object (some [("sku", .primitive .text)]) [])),
    ("payer", .object (some [("self", .reference "#/components/schemas/Order")]) [])]) []

/-- A buffer in which one of the nested shapes has a declaration of another kind. -/
def takenBuffer : DeclarationBuffer :=
  .register .empty ⟨(DeclarationName.ofSchema "Order").child "lines", .typeAlias .any⟩

theorem resolve_additive_taken :
    let resolved := orderNode.resolve ["Order"] (.ofSchema "Order") ⟨takenBuffer, []⟩
    resolved.2.buffer.names = [(DeclarationName.ofSchema "Order").child "lines",
        (DeclarationName.ofSchema "Order").child "payer", .ofSchema "Order"] ∧
      (orderNode.resolve ["Order"] (.ofSchema "Order") resolved.2).2.buffer =
        resolved.2.buffer := by
  refine ⟨by decide, ?_⟩
  exact (resolve_additive ["Order"] orderNode (.ofSchema "Order") ⟨takenBuffer, []⟩).2.2.2 _
    (List.Subset.refl _)

end SchemaNode

end TypedClient
