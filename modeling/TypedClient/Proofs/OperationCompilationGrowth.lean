import TypedClient.Operation.Compilation
import TypedClient.Proofs.SchemaResolutionGrowth

/-!
# What compiling an operation declares

The query, the body and the response are compiled one after the other into one
buffer. Each adds names of its own family, so none is in the way of another, and
together they declare exactly what the types of the method need.
-/

namespace TypedClient.Operation

variable (known : List String)

/-- The names of one family of an operation. -/
def IsInFamily (family : NameFamily) (operation : Operation) (declaration : Declaration) :
    Prop :=
  declaration.name.IsBelow (.ofOperation family operation.key)

theorem resolveUnder_result (origin : String) (node : SchemaNode) (name : DeclarationName)
    (before : DeclarationBuffer) :
    (resolveUnder known origin node name before).result = node.typeUnder known name :=
  SchemaNode.fst_resolve node name ⟨before, []⟩

theorem resolveUnder_growth (origin : String) (node : SchemaNode) (name : DeclarationName)
    (before : DeclarationBuffer) :
    ∃ added, Growth known (node.IsShapeOf known name)
      [(resolveUnder known origin node name before).result] before added
      (resolveUnder known origin node name before).declarations := by
  rw [resolveUnder_result]
  exact SchemaNode.resolve_growth node name ⟨before, []⟩

theorem resolveParameter_growth (label : String) (owner : DeclarationName)
    (parameter : Parameter) (before : DeclarationBuffer) :
    ∃ added, Growth known (fun declaration =>
        declaration.name.IsBelow (owner.child parameter.name))
      [(resolveParameter known label owner parameter before).result] before added
      (resolveParameter known label owner parameter before).declarations := by
  unfold resolveParameter
  cases parameter.schema with
  | none => exact ⟨[], .unchanged (by simp [namesIn, TypeExpr.name?])⟩
  | some node =>
      obtain ⟨added, growth⟩ := resolveUnder_growth known
        (label ++ " query parameter '" ++ parameter.name ++ "'") node
        (owner.child parameter.name) before
      exact ⟨added, growth.weaken fun declaration shape => shape.1.1⟩

theorem queryMembers_growth (label : String) (owner : DeclarationName)
    (parameters : List Parameter) (before : DeclarationBuffer) :
    ∃ added, Growth known (fun declaration =>
        declaration.name.IsBelow owner ∧ declaration.name ≠ owner)
      ((queryMembers known label owner parameters before).result.map Property.type) before added
      (queryMembers known label owner parameters before).declarations := by
  induction parameters generalizing before with
  | nil => exact ⟨[], .unchanged (by simp [namesIn, queryMembers])⟩
  | cons parameter rest ih =>
      obtain ⟨added, growth⟩ := resolveParameter_growth known label owner parameter before
      obtain ⟨more, others⟩ :=
        ih (resolveParameter known label owner parameter before).declarations
      have nested := growth.weaken fun declaration below =>
        And.intro (below.trans (DeclarationName.child_isBelow owner parameter.name))
          below.ne_of_child
      exact ⟨added ++ more, nested.followedBy others⟩

theorem not_mem_names_queryMembers (label : String) {owner : DeclarationName}
    (parameters : List Parameter) {before : DeclarationBuffer} (fresh : owner ∉ before.names) :
    owner ∉ (queryMembers known label owner parameters before).declarations.names := by
  obtain ⟨added, growth⟩ := queryMembers_growth known label owner parameters before
  exact growth.not_mem_names fresh fun _ nested => nested.2

theorem compileQuery_growth (operation : Operation) (before : DeclarationBuffer)
    (fresh : .ofOperation .query operation.key ∉ before.names) :
    ∃ added, Growth known (operation.IsInFamily .query)
      (operation.compileQuery known before).result.toList before added
      (operation.compileQuery known before).declarations := by
  unfold compileQuery
  cases operation.parametersIn .query with
  | nil => exact ⟨[], .unchanged (by simp [namesIn])⟩
  | cons parameter rest =>
      obtain ⟨added, growth⟩ := queryMembers_growth known operation.label
        (.ofOperation .query operation.key) (parameter :: rest) before
      have unregistered :=
        not_mem_names_queryMembers known operation.label (parameter :: rest) fresh
      have inFamily : Growth known (operation.IsInFamily .query) _ _ _ _ :=
        growth.weaken fun _ nested => nested.1
      exact ⟨_, Growth.declare inFamily unregistered (.refl _)⟩

/-- A schema whose core is no declared shape, or has the root name already, keeps its
type. -/
theorem compileNamed_eq_resolveUnder (origin : String) (name : DeclarationName)
    (node : SchemaNode) (before : DeclarationBuffer)
    (core : ∀ target, (node.typeUnder known name).element = .named target → target = name) :
    compileNamed known origin name node before = resolveUnder known origin node name before := by
  have result := resolveUnder_result known origin node name before
  simp only [compileNamed]
  split
  · rename_i target elementEq
    rw [result] at elementEq
    have isName := core target elementEq
    subst isName
    have unchanged : (TypeExpr.named target).wrapArrays
        (resolveUnder known origin node target before).result.depth =
          (resolveUnder known origin node target before).result := by
      rw [result, ← elementEq, TypeExpr.wrapArrays_element]
    simp only [if_pos, unchanged]
  · rfl

/-- Any other declared shape at the core of a schema gets the root name as an
alias. -/
theorem compileNamed_of_core (origin : String) {name target : DeclarationName}
    {node : SchemaNode} (before : DeclarationBuffer)
    (core : (node.typeUnder known name).element = .named target) (different : target ≠ name) :
    compileNamed known origin name node before =
      ⟨(TypeExpr.named name).wrapArrays (node.typeUnder known name).depth,
        (resolveUnder known origin node name before).declarations.register
          ⟨name, .typeAlias (.named target)⟩,
        (resolveUnder known origin node name before).warnings⟩ := by
  have result := resolveUnder_result known origin node name before
  unfold compileNamed
  simp only [result, core, if_neg different]

/-- A root name that is not the core of a schema is still free when the schema is
resolved. -/
theorem not_mem_names_resolveUnder (origin : String) {name target : DeclarationName}
    {node : SchemaNode} {before : DeclarationBuffer} (fresh : name ∉ before.names)
    (core : (node.typeUnder known name).element = .named target) (different : target ≠ name) :
    name ∉ (resolveUnder known origin node name before).declarations.names := by
  obtain ⟨added, growth⟩ := resolveUnder_growth known origin node name before
  refine growth.not_mem_names fresh fun declaration shape isName => ?_
  have isCore := shape.2 isName
  exact different (TypeExpr.named.inj (core.symm.trans isCore))

theorem compileNamed_growth (origin : String) (name : DeclarationName) (node : SchemaNode)
    (before : DeclarationBuffer) (fresh : name ∉ before.names) :
    ∃ added, Growth known (fun declaration => declaration.name.IsBelow name)
      [(compileNamed known origin name node before).result] before added
      (compileNamed known origin name node before).declarations := by
  obtain ⟨added, growth⟩ := resolveUnder_growth known origin node name before
  have below : Growth known (fun declaration => declaration.name.IsBelow name) _ _ _ _ :=
    growth.weaken fun _ shape => shape.1.1
  by_cases aliased : ∃ target, (node.typeUnder known name).element = .named target ∧ target ≠ name
  · obtain ⟨target, core, different⟩ := aliased
    rw [compileNamed_of_core known origin before core different]
    have unregistered := not_mem_names_resolveUnder known origin fresh core different
    have targetName : (TypeExpr.named target).name? = (node.typeUnder known name).name? := by
      rw [← core, TypeExpr.name?_element]
    rw [resolveUnder_result] at below
    have declared : Growth known (fun declaration => declaration.name.IsBelow name)
        [.named name] before (added ++ [⟨name, .typeAlias (.named target)⟩]) _ :=
      Growth.declare (below.congrTypes (namesIn_congr targetName.symm)) unregistered (.refl name)
    exact ⟨_, declared.congrTypes (namesIn_congr (TypeExpr.name?_wrapArrays _ _).symm)⟩
  · push Not at aliased
    rw [compileNamed_eq_resolveUnder known origin name node before aliased]
    exact ⟨added, below⟩

theorem compileBody_growth (operation : Operation) (before : DeclarationBuffer)
    (fresh : .ofOperation .body operation.key ∉ before.names) :
    ∃ added, Growth known (operation.IsInFamily .body)
      (operation.compileBody known before).result.toList before added
      (operation.compileBody known before).declarations := by
  unfold compileBody
  cases operation.requestBody with
  | none => exact ⟨[], .unchanged (by simp [namesIn])⟩
  | some node => exact compileNamed_growth known _ _ node before fresh

theorem compileResponse_growth (operation : Operation) (before : DeclarationBuffer)
    (fresh : .ofOperation .response operation.key ∉ before.names) :
    ∃ added, Growth known (operation.IsInFamily .response)
      [(operation.compileResponse known before).result] before added
      (operation.compileResponse known before).declarations := by
  unfold compileResponse
  cases operation.response with
  | none => exact ⟨[], .unchanged (by simp [namesIn, TypeExpr.name?])⟩
  | some node => exact compileNamed_growth known _ _ node before fresh

theorem IsInFamily.family_eq {family : NameFamily} {operation : Operation}
    {declaration : Declaration} (inFamily : operation.IsInFamily family declaration) :
    declaration.name.family = family :=
  inFamily.1

theorem IsInFamily.owner_eq {family : NameFamily} {operation : Operation}
    {declaration : Declaration} (inFamily : operation.IsInFamily family declaration) :
    declaration.name.owner = .operation operation.key :=
  inFamily.2.1

theorem family_eq_of_mem_compileQuery (operation : Operation) :
    ∀ name ∈ (operation.compileQuery known .empty).declarations.names, name.family = .query := by
  obtain ⟨added, growth⟩ := compileQuery_growth known operation .empty List.not_mem_nil
  exact growth.forall_names (fun _ declared => absurd declared List.not_mem_nil)
    fun _ => IsInFamily.family_eq

theorem family_ne_of_mem_compileBody (operation : Operation) :
    ∀ name ∈ (operation.compileBody known
        (operation.compileQuery known .empty).declarations).declarations.names,
      name.family ≠ .response := by
  have queryNames := family_eq_of_mem_compileQuery known operation
  obtain ⟨added, growth⟩ := compileBody_growth known operation
    (operation.compileQuery known .empty).declarations
    (fun declared => nomatch queryNames _ declared)
  exact growth.forall_names (fun name declared => by rw [queryNames name declared]; decide)
    fun _ inFamily => by rw [inFamily.family_eq]; decide

variable [Text.Conversions]

/-- The arguments of placeholders are scalars. -/
theorem namesIn_pathArguments (operation : Operation) :
    namesIn (operation.pathArguments.map PathArgument.type) = [] := by
  have noName : ∀ type ∈ operation.pathArguments.map PathArgument.type, type.name? = none := by
    intro type member
    obtain ⟨argument, argumentMem, rfl⟩ := List.mem_map.mp member
    obtain ⟨placeholder, _, rfl⟩ := List.mem_map.mp argumentMem
    rfl
  rw [namesIn, List.filterMap_eq_nil_iff.mpr noName, List.eraseDups_nil]

/-- Compiling an operation declares names of its own and of no component, all of them
needed for the signature of its method. -/
theorem compile_ownGrowth (operation : Operation) :
    Growth known (fun declaration =>
        declaration.name.owner = .operation operation.key ∧ declaration.name.family ≠ .dto)
      (operation.compile known).1.method.types .empty
      (operation.compile known).1.declarations.declarations
      (operation.compile known).1.declarations := by
  have own : ∀ {family : NameFamily}, family ≠ .dto → ∀ declaration,
      operation.IsInFamily family declaration →
        declaration.name.owner = .operation operation.key ∧ declaration.name.family ≠ .dto :=
    fun notDto _ inFamily => ⟨inFamily.owner_eq, inFamily.family_eq ▸ notDto⟩
  have arguments : Growth known (fun declaration =>
      declaration.name.owner = .operation operation.key ∧ declaration.name.family ≠ .dto)
        (operation.pathArguments.map PathArgument.type) .empty [] .empty :=
    .unchanged (by simp [namesIn_pathArguments])
  obtain ⟨queryAdded, query⟩ := compileQuery_growth known operation .empty List.not_mem_nil
  obtain ⟨bodyAdded, body⟩ := compileBody_growth known operation
    (operation.compileQuery known .empty).declarations
    (fun declared => nomatch family_eq_of_mem_compileQuery known operation _ declared)
  obtain ⟨responseAdded, response⟩ := compileResponse_growth known operation
    (operation.compileBody known (operation.compileQuery known .empty).declarations).declarations
    (fun declared => family_ne_of_mem_compileBody known operation _ declared rfl)
  have growth := ((arguments.followedBy (query.weaken (own (by decide)))).followedBy
    (body.weaken (own (by decide)))).followedBy (response.weaken (own (by decide)))
  -- all declarations are added ones, since the first buffer is empty
  have allAdded : [] ++ queryAdded ++ bodyAdded ++ responseAdded =
      (operation.compile known).1.declarations.declarations := growth.extended.symm
  rw [allAdded] at growth
  exact growth

theorem compile_growth (operation : Operation) :
    Growth known (fun declaration => declaration.name.owner = .operation operation.key)
      (operation.compile known).1.method.types .empty
      (operation.compile known).1.declarations.declarations
      (operation.compile known).1.declarations :=
  (compile_ownGrowth known operation).weaken fun _ own => own.1

theorem family_ne_dto_of_mem_compile (operation : Operation) :
    ∀ name ∈ (operation.compile known).1.declarations.names, name.family ≠ .dto :=
  (compile_ownGrowth known operation).forall_names
    (fun _ declared => absurd declared List.not_mem_nil) fun _ own => own.2

end TypedClient.Operation
