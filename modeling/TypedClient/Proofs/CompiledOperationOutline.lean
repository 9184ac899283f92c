import TypedClient.Document.Lowering
import TypedClient.Proofs.OperationCompilationGrowth
import TypedClient.Proofs.SchemaShapes

/-!
# What the types of a compiled operation stand for

The query, the body and the response of an operation share one buffer, but the names
of each family are free until its turn comes. So every shape in their schemas is
declared, and the types of the method have the outlines of the schemas, whether the
root names are interfaces or aliases and however many array layers are around them.
-/

namespace TypedClient

/-- The schema of a parameter; a parameter without a schema is untyped. -/
def Parameter.node (parameter : Parameter) : SchemaNode :=
  parameter.schema.getD .any

namespace Operation

def schemas (operation : Operation) : List SchemaNode :=
  operation.parameters.map Parameter.node ++ operation.requestBody.toList ++
    operation.response.toList

/-- The outline of a query interface: a member for each parameter, optional unless
the parameter is required. -/
def queryOutline (known : List String) (parameters : List Parameter) : Outline :=
  .object (parameters.map fun parameter =>
    (parameter.name, !parameter.required, parameter.node.outline known))

/-- The outline of the response; without a schema it is untyped. -/
def responseOutline (known : List String) (operation : Operation) : Outline :=
  (operation.response.getD .any).outline known

def queryProperties (known : List String) (owner : DeclarationName)
    (parameters : List Parameter) : List Property :=
  parameters.map fun parameter =>
    ⟨parameter.name, parameter.node.typeUnder known (owner.child parameter.name),
      !parameter.required⟩

def queryShapes (owner : DeclarationName) (parameters : List Parameter) : List ObjectShape :=
  parameters.flatMap fun parameter => parameter.node.shapesUnder (owner.child parameter.name)

variable (known : List String)

theorem result_resolveParameter (label : String) (owner : DeclarationName)
    (parameter : Parameter) (before : DeclarationBuffer) :
    (resolveParameter known label owner parameter before).result =
      parameter.node.typeUnder known (owner.child parameter.name) := by
  unfold resolveParameter Parameter.node
  cases parameter.schema with
  | none => rfl
  | some node => exact resolveUnder_result known _ node _ before

theorem declarations_resolveParameter (label : String) {owner : DeclarationName}
    {parameter : Parameter} {before : DeclarationBuffer}
    (keysDistinct : parameter.node.KeysDistinct)
    (fresh : before.IsFreshBelow (owner.child parameter.name)) :
    (resolveParameter known label owner parameter before).declarations.declarations =
      before.declarations ++ (parameter.node.shapesUnder (owner.child parameter.name)).map
        (ObjectShape.declaration known) := by
  unfold resolveParameter
  unfold Parameter.node at keysDistinct ⊢
  cases schemaEq : parameter.schema with
  | none => exact (List.append_nil _).symm
  | some node =>
      rw [schemaEq] at keysDistinct
      exact @SchemaNode.declarations_resolve known node keysDistinct _ ⟨before, []⟩ fresh

theorem result_queryMembers (label : String) (owner : DeclarationName)
    (parameters : List Parameter) (before : DeclarationBuffer) :
    (queryMembers known label owner parameters before).result =
      queryProperties known owner parameters := by
  induction parameters generalizing before with
  | nil => rfl
  | cons parameter rest ih =>
      simp only [queryMembers, result_resolveParameter, ih]
      rfl

/-- Query parameters of different names declare the shapes nested in all of them. -/
theorem declarations_queryMembers (label : String) (owner : DeclarationName)
    {parameters : List Parameter} {before : DeclarationBuffer}
    (distinct : (parameters.map Parameter.name).Nodup)
    (keysDistinct : ∀ parameter ∈ parameters, parameter.node.KeysDistinct)
    (fresh : ∀ name ∈ parameters.map Parameter.name, before.IsFreshBelow (owner.child name)) :
    (queryMembers known label owner parameters before).declarations.declarations =
      before.declarations ++
        (queryShapes owner parameters).map (ObjectShape.declaration known) := by
  induction parameters generalizing before with
  | nil => exact (List.append_nil _).symm
  | cons parameter rest ih =>
      rw [List.map_cons, List.nodup_cons] at distinct
      have first := declarations_resolveParameter known label
        (keysDistinct parameter List.mem_cons_self) (fresh _ List.mem_cons_self)
      have others := ih distinct.2
        (fun other member => keysDistinct other (List.mem_cons_of_mem _ member))
        (DeclarationBuffer.forall_isFreshBelow_of_sibling distinct.1 fresh first)
      have shapes : queryShapes owner (parameter :: rest) =
          parameter.node.shapesUnder (owner.child parameter.name) ++ queryShapes owner rest :=
        List.flatMap_cons
      rw [shapes, List.map_append, ← List.append_assoc, ← first]
      exact others

theorem compileQuery_of_parameters {operation : Operation} {before : DeclarationBuffer}
    (fresh : .ofOperation .query operation.key ∉ before.names)
    (present : operation.parametersIn .query ≠ []) :
    (operation.compileQuery known before).result =
        some (.named (.ofOperation .query operation.key)) ∧
      (operation.compileQuery known before).declarations.declarations =
        (queryMembers known operation.label (.ofOperation .query operation.key)
            (operation.parametersIn .query) before).declarations.declarations ++
          [⟨.ofOperation .query operation.key,
            .interface (queryProperties known (.ofOperation .query operation.key)
              (operation.parametersIn .query))⟩] := by
  unfold compileQuery
  split
  · rename_i none
    exact absurd none present
  · refine ⟨rfl, ?_⟩
    rw [← result_queryMembers known operation.label]
    exact DeclarationBuffer.declarations_register_of_not_mem
      (not_mem_names_queryMembers known operation.label _ fresh)

variable {known} {declarations : List Declaration}

/-- Where the shapes nested in the parameters are declared, the query interface has
its outline. -/
theorem unfolds_queryProperties (owner : DeclarationName) (parameters : List Parameter)
    (declared : ∀ shape ∈ queryShapes owner parameters,
      shape.declaration known ∈ declarations) :
    Unfolds declarations (.interface (queryProperties known owner parameters))
      (queryOutline known parameters) := by
  induction parameters with
  | nil => exact .noMembers
  | cons parameter rest ih =>
      have first := SchemaNode.unfolds_typeUnder parameter.node
        (SchemaNode.child_ne_ofSchema owner parameter.name) fun shape member =>
          declared shape (List.mem_append_left _ member)
      have others := ih fun shape member => declared shape (List.mem_append_right _ member)
      exact .member first others

theorem ofOperation_ne_ofSchema (family : NameFamily) (key : Nat) (schema : String) :
    DeclarationName.ofOperation family key ≠ .ofSchema schema := by
  simp [DeclarationName.ofOperation, DeclarationName.ofSchema]

/-- Parameters that differ in name or place differ in name where they are in one
place. -/
theorem names_parametersIn_nodup {operation : Operation}
    (unique : (operation.parameters.map Document.Parameter.identity).Nodup)
    (location : ParameterLocation) :
    ((operation.parametersIn location).map Parameter.name).Nodup := by
  have apart := List.pairwise_map.mp unique
  refine List.pairwise_map.mpr ((apart.filter _).imp_of_mem ?_)
  intro first second firstMem secondMem differ sameName
  have firstPlace : first.location = location := by simpa using (List.mem_filter.mp firstMem).2
  have secondPlace : second.location = location := by
    simpa using (List.mem_filter.mp secondMem).2
  exact differ (Prod.ext sameName (firstPlace.trans secondPlace.symm))

theorem unfolds_compileQuery {operation : Operation}
    (unique : (operation.parameters.map Document.Parameter.identity).Nodup)
    (keysDistinct : ∀ node ∈ operation.schemas, node.KeysDistinct)
    (present : operation.parametersIn .query ≠ []) :
    Unfolds (operation.compileQuery known .empty).declarations.declarations
      (.typeAlias (.named (.ofOperation .query operation.key)))
      (queryOutline known (operation.parametersIn .query)) := by
  have parameterKeys : ∀ parameter ∈ operation.parametersIn .query,
      parameter.node.KeysDistinct := by
    intro parameter member
    have isParameter := List.mem_of_mem_filter member
    exact keysDistinct _ (List.mem_append_left _ (List.mem_append_left _
      (List.mem_map_of_mem isParameter)))
  have nested := @declarations_queryMembers known operation.label
    (.ofOperation .query operation.key) _ .empty (names_parametersIn_nodup unique .query)
    parameterKeys fun _ _ _ declared => absurd declared List.not_mem_nil
  have listed := (@compileQuery_of_parameters known operation .empty List.not_mem_nil present).2
  rw [nested] at listed
  have root : ⟨.ofOperation .query operation.key, .interface (queryProperties known
      (.ofOperation .query operation.key) (operation.parametersIn .query))⟩ ∈
        (operation.compileQuery known .empty).declarations.declarations := by
    rw [listed]
    exact List.mem_append_right _ (List.mem_singleton_self _)
  have shapes : ∀ shape ∈ queryShapes (.ofOperation .query operation.key)
      (operation.parametersIn .query), shape.declaration known ∈
        (operation.compileQuery known .empty).declarations.declarations := by
    intro shape member
    rw [listed]
    exact List.mem_append_left _ (List.mem_append_right _ (List.mem_map_of_mem member))
  exact .declared (ofOperation_ne_ofSchema .query operation.key) root
    (unfolds_queryProperties _ _ shapes)

/-- Under a free name, a schema gets a type that has its outline. -/
theorem unfolds_compileNamed (origin : String) {name : DeclarationName} {node : SchemaNode}
    {before : DeclarationBuffer} (notComponent : ∀ schema, name ≠ .ofSchema schema)
    (keysDistinct : node.KeysDistinct) (fresh : before.IsFreshBelow name) :
    Unfolds (compileNamed known origin name node before).declarations.declarations
      (.typeAlias (compileNamed known origin name node before).result)
      (node.outline known) := by
  have declared : (resolveUnder known origin node name before).declarations.declarations =
      before.declarations ++ (node.shapesUnder name).map (ObjectShape.declaration known) :=
    @SchemaNode.declarations_resolve known node keysDistinct name ⟨before, []⟩ fresh
  have unfolds : Unfolds (resolveUnder known origin node name before).declarations.declarations
      (.typeAlias (node.typeUnder known name)) (node.outline known) := by
    refine SchemaNode.unfolds_typeUnder node notComponent fun shape member => ?_
    rw [declared]
    exact List.mem_append_right _ (List.mem_map_of_mem member)
  by_cases aliased : ∃ target, (node.typeUnder known name).element = .named target ∧ target ≠ name
  · obtain ⟨target, core, different⟩ := aliased
    have added : ((resolveUnder known origin node name before).declarations.register
        ⟨name, .typeAlias (.named target)⟩).declarations =
          (resolveUnder known origin node name before).declarations.declarations ++
            [⟨name, .typeAlias (.named target)⟩] :=
      DeclarationBuffer.declarations_register_of_not_mem (not_mem_names_resolveUnder known origin
        (fun declared => fresh name declared (.refl name)) core different)
    rw [compileNamed_of_core known origin before core different]
    simp only [added]
    have registered : (⟨name, .typeAlias (.named target)⟩ : Declaration) ∈
        (resolveUnder known origin node name before).declarations.declarations ++
          [⟨name, .typeAlias (.named target)⟩] :=
      List.mem_append_right _ (List.mem_singleton_self _)
    -- the type is made of the target and its layers, and the name stands for the target
    have layers := (node.typeUnder known name).wrapArrays_element
    rw [core] at layers
    rw [← layers] at unfolds
    exact (unfolds.mono (List.subset_append_left _ _)).wrapArrays
      (fun outline => .declared notComponent registered) _
  · push Not at aliased
    rw [compileNamed_eq_resolveUnder known origin name node before aliased, resolveUnder_result]
    exact unfolds

theorem unfolds_compileBody {operation : Operation} {node : SchemaNode}
    {before : DeclarationBuffer} (present : operation.requestBody = some node)
    (keysDistinct : node.KeysDistinct)
    (fresh : before.IsFreshBelow (.ofOperation .body operation.key)) :
    ∃ type, (operation.compileBody known before).result = some type ∧
      Unfolds (operation.compileBody known before).declarations.declarations (.typeAlias type)
        (node.outline known) := by
  unfold compileBody
  rw [present]
  exact ⟨_, rfl, unfolds_compileNamed _ (ofOperation_ne_ofSchema .body operation.key)
    keysDistinct fresh⟩

theorem unfolds_compileResponse {operation : Operation} {before : DeclarationBuffer}
    (keysDistinct : ∀ node ∈ operation.response, node.KeysDistinct)
    (fresh : before.IsFreshBelow (.ofOperation .response operation.key)) :
    Unfolds (operation.compileResponse known before).declarations.declarations
      (.typeAlias (operation.compileResponse known before).result)
      (operation.responseOutline known) := by
  unfold compileResponse responseOutline
  cases present : operation.response with
  | none => exact .any
  | some node =>
      exact unfolds_compileNamed _ (ofOperation_ne_ofSchema .response operation.key)
        (keysDistinct node present) fresh

end Operation

namespace CompiledOperation

/-- A type has an outline and no other. -/
def HasOutline (compiled : CompiledOperation) (type : TypeExpr) (outline : Outline) : Prop :=
  ∀ other, Unfolds compiled.declarations.declarations (.typeAlias type) other ↔ other = outline

def names (compiled : CompiledOperation) : List DeclarationName :=
  compiled.method.references ++ compiled.declarations.names ++
    compiled.declarations.declarations.flatMap Declaration.references

/-- The types of a method stand for the schemas of an operation, and the names that an
operation owns are its own. -/
structure IsFaithful (compiled : CompiledOperation) (known : List String)
    (operation : Operation) : Prop where
  queryPresent : compiled.method.query.isSome ↔ operation.parametersIn .query ≠ []
  query : ∀ type ∈ compiled.method.query,
    compiled.HasOutline type (Operation.queryOutline known (operation.parametersIn .query))
  bodyPresent : compiled.method.body.isSome ↔ operation.requestBody.isSome
  body : ∀ type ∈ compiled.method.body, ∀ node ∈ operation.requestBody,
    compiled.HasOutline type (node.outline known)
  response : compiled.HasOutline compiled.method.response (operation.responseOutline known)
  ownKey : ∀ name ∈ compiled.names, ∀ key, name.owner = .operation key → key = operation.key

end CompiledOperation

namespace Operation

variable (known : List String) (operation : Operation)

theorem isSome_compileBody (before : DeclarationBuffer) :
    (operation.compileBody known before).result.isSome = operation.requestBody.isSome := by
  unfold compileBody
  cases operation.requestBody <;> rfl

/-- The query takes no name of the body. -/
theorem isFreshBelow_body :
    (operation.compileQuery known .empty).declarations.IsFreshBelow
      (.ofOperation .body operation.key) := by
  intro name declared below
  have isQuery := family_eq_of_mem_compileQuery known operation name declared
  exact nomatch isQuery.symm.trans below.1

theorem isFreshBelow_response :
    (operation.compileBody known (operation.compileQuery known .empty).declarations).declarations
      |>.IsFreshBelow (.ofOperation .response operation.key) :=
  fun name declared below => family_ne_of_mem_compileBody known operation name declared below.1

theorem subset_compileBody :
    (operation.compileQuery known .empty).declarations.declarations ⊆
      (operation.compileBody known
        (operation.compileQuery known .empty).declarations).declarations.declarations := by
  obtain ⟨added, growth⟩ := compileBody_growth known operation
    (operation.compileQuery known .empty).declarations
    fun declared => isFreshBelow_body known operation _ declared (.refl _)
  exact growth.subset

theorem isSome_compileQuery (before : DeclarationBuffer) :
    (operation.compileQuery known before).result.isSome ↔ operation.parametersIn .query ≠ [] := by
  unfold compileQuery
  cases operation.parametersIn .query <;> simp

section Compilation

variable [Text.Conversions]

/-- Every name in a compiled operation is covered, so that an operation that owns it
declares it. -/
theorem owner_eq_of_mem_names {name : DeclarationName} {key : Nat}
    (member : name ∈ (operation.compile known).1.names) (owned : name.owner = .operation key) :
    key = operation.key := by
  have growth := compile_growth known operation
  have ofDeclared : name ∈ (operation.compile known).1.declarations.names →
      key = operation.key := by
    intro declared
    obtain ⟨declaration, declarationMem, rfl⟩ := DeclarationBuffer.mem_names.mp declared
    exact NameOwner.operation.inj (owned.symm.trans (growth.ofKind declaration declarationMem))
  have ofCovered : (operation.compile known).1.declarations.Covers known name →
      key = operation.key := by
    rintro (declared | ⟨schema, _, rfl⟩)
    · exact ofDeclared declared
    · contradiction
  rcases List.mem_append.mp member with inSignature | inReferences
  · rcases List.mem_append.mp inSignature with inTypes | declared
    · exact ofCovered (growth.typesCovered name inTypes)
    · exact ofDeclared declared
  · obtain ⟨declaration, declarationMem, refers⟩ := List.mem_flatMap.mp inReferences
    exact ofCovered (growth.addedCovered declaration declarationMem name refers)

theorem subset_compileResponse :
    (operation.compileBody known
        (operation.compileQuery known .empty).declarations).declarations.declarations ⊆
      (operation.compile known).1.declarations.declarations := by
  obtain ⟨added, growth⟩ := compileResponse_growth known operation
    (operation.compileBody known (operation.compileQuery known .empty).declarations).declarations
    fun declared => isFreshBelow_response known operation _ declared (.refl _)
  exact growth.subset

variable {known operation} {type : TypeExpr}

theorem hasOutline_query
    (unique : (operation.parameters.map Document.Parameter.identity).Nodup)
    (keysDistinct : ∀ node ∈ operation.schemas, node.KeysDistinct)
    (compiled : type ∈ (operation.compile known).1.method.query) :
    (operation.compile known).1.HasOutline type
      (queryOutline known (operation.parametersIn .query)) := by
  have present : operation.parametersIn .query ≠ [] :=
    (isSome_compileQuery known operation .empty).mp (Option.isSome_of_mem compiled)
  have query := (@compileQuery_of_parameters known operation .empty List.not_mem_nil present).1
  cases Option.some.inj (compiled.symm.trans query)
  have unfolds := @unfolds_compileQuery known operation unique keysDistinct present
  exact ((unfolds.mono (subset_compileBody known operation)).mono
    (subset_compileResponse known operation)).iff_eq
      (operation.compile known).1.declarations.distinct

theorem hasOutline_body {node : SchemaNode} (keysDistinct : node.KeysDistinct)
    (compiled : type ∈ (operation.compile known).1.method.body)
    (present : operation.requestBody = some node) :
    (operation.compile known).1.HasOutline type (node.outline known) := by
  obtain ⟨bodyType, result, unfolds⟩ :=
    unfolds_compileBody present keysDistinct (isFreshBelow_body known operation)
  cases Option.some.inj (compiled.symm.trans result)
  exact (unfolds.mono (subset_compileResponse known operation)).iff_eq
    (operation.compile known).1.declarations.distinct

theorem hasOutline_response (keysDistinct : ∀ node ∈ operation.response, node.KeysDistinct) :
    (operation.compile known).1.HasOutline (operation.compile known).1.method.response
      (operation.responseOutline known) := by
  have unfolds := @unfolds_compileResponse known operation _ keysDistinct
    (isFreshBelow_response known operation)
  exact unfolds.iff_eq (operation.compile known).1.declarations.distinct

variable (known operation)

theorem compile_faithful
    (unique : (operation.parameters.map Document.Parameter.identity).Nodup)
    (keysDistinct : ∀ node ∈ operation.schemas, node.KeysDistinct) :
    (operation.compile known).1.IsFaithful known operation where
  queryPresent := isSome_compileQuery known operation .empty
  query := fun _ compiled => hasOutline_query unique keysDistinct compiled
  bodyPresent := Bool.eq_iff_iff.mp (isSome_compileBody known operation _)
  body := by
    intro type compiled node present
    have bodyKeys := keysDistinct node (List.mem_append_left _ (List.mem_append_right _
      (Option.mem_toList.mpr present)))
    exact hasOutline_body bodyKeys compiled present
  response := by
    refine hasOutline_response fun node present => ?_
    exact keysDistinct node (List.mem_append_right _ (Option.mem_toList.mpr present))
  ownKey := fun _ member _ owned => owner_eq_of_mem_names known operation member owned

end Compilation

section Sample

attribute [local instance] Text.Conversions.unchanged

/-- An operation with one name in two places, a body of references in two array layers
and an array of objects as its response. -/
def sampleOperation : Operation where
  key := 3
  method := .put
  path := "/pets/{id}"
  tags := ["pets"]
  parameters := [⟨"id", .path, true, some (.primitive .integer)⟩,
    ⟨"id", .query, false, some (.object (some [("from", .primitive .integer)]) [])⟩,
    ⟨"sort", .query, true, none⟩]
  requestBody := some (.array (.array (.reference "#/components/schemas/Pet")))
  response := some (.array (.object (some [("name", .primitive .text)]) ["name"]))
  summary := none
  description := none
  deprecated := false

theorem compile_faithful_sample :
    (sampleOperation.parameters.map Document.Parameter.identity).Nodup ∧
      (∀ node ∈ sampleOperation.schemas, node.KeysDistinct) ∧
        (sampleOperation.compile ["Pet"]).1.HasOutline
          (.array (.array (.named (.ofOperation .body 3))))
          (.array (.array (.component "Pet"))) := by
  have unique : (sampleOperation.parameters.map Document.Parameter.identity).Nodup := by decide
  have keysDistinct : ∀ node ∈ sampleOperation.schemas, node.KeysDistinct := by
    simp [sampleOperation, schemas, Parameter.node, SchemaNode.KeysDistinct,
      SchemaNode.MembersKeysDistinct]
  exact ⟨unique, keysDistinct,
    (compile_faithful ["Pet"] sampleOperation unique keysDistinct).body _ rfl _ rfl⟩

end Sample

end Operation

end TypedClient
