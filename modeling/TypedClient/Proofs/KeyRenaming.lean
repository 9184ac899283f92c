import TypedClient.Proofs.NameSubstitution
import TypedClient.Proofs.OperationCompilationGrowth
import Mathlib.Logic.Equiv.Basic

/-!
# Operation keys are only names

Compiling an operation never looks at its key, other than to tell names apart. So with
another key it gives the same method and the same declarations, with the new key in the
place of the old one.
-/

namespace TypedClient

variable (renumber : Equiv.Perm Nat)

def NameOwner.rekey : NameOwner → NameOwner
  | schema name => schema name
  | operation key => operation (renumber key)

namespace DeclarationName

/-- The name that belongs to the renumbered operation. -/
def rekey (name : DeclarationName) : DeclarationName :=
  { name with owner := name.owner.rekey renumber }

theorem rekey_injective : Function.Injective (rekey renumber) := by
  rintro ⟨family, owner, keys⟩ ⟨otherFamily, otherOwner, otherKeys⟩ same
  simp only [rekey, mk.injEq] at same
  obtain ⟨rfl, sameOwner, rfl⟩ := same
  cases owner with
  | schema schema =>
      cases otherOwner with
      | schema other => rw [NameOwner.schema.inj sameOwner]
      | operation key => contradiction
  | operation key =>
      cases otherOwner with
      | schema other => contradiction
      | operation other => rw [renumber.injective (NameOwner.operation.inj sameOwner)]

variable {renumber}

theorem rekey_of_schemaOwned {name : DeclarationName} (owned : name.IsSchemaOwned) :
    name.rekey renumber = name := by
  obtain ⟨family, owner, keys⟩ := name
  obtain ⟨schema, rfl⟩ := owned
  rfl

theorem rekey_symm_rekey (name : DeclarationName) :
    (name.rekey renumber).rekey renumber.symm = name := by
  obtain ⟨family, owner, keys⟩ := name
  cases owner with
  | schema schema => rfl
  | operation key => simp [rekey, NameOwner.rekey]

end DeclarationName

theorem DeclarationBuffer.eq_of_declarations_eq {buffer other : DeclarationBuffer}
    (same : buffer.declarations = other.declarations) : buffer = other := by
  obtain ⟨declarations, distinct⟩ := buffer
  obtain ⟨otherDeclarations, otherDistinct⟩ := other
  obtain rfl : declarations = otherDeclarations := same
  rfl

def Declaration.rekey (declaration : Declaration) : Declaration :=
  declaration.mapNames (DeclarationName.rekey renumber)

def TypeExpr.rekey (type : TypeExpr) : TypeExpr :=
  type.mapNames (DeclarationName.rekey renumber)

namespace DeclarationBuffer

theorem map_name_map_rekey (declarations : List Declaration) :
    (declarations.map (Declaration.rekey renumber)).map Declaration.name =
      (declarations.map Declaration.name).map (DeclarationName.rekey renumber) := by
  rw [List.map_map, List.map_map]
  rfl

/-- The buffer with the names of the renumbered operations. -/
def rekey (buffer : DeclarationBuffer) : DeclarationBuffer :=
  ⟨buffer.declarations.map (Declaration.rekey renumber), by
    rw [map_name_map_rekey]
    exact buffer.distinct.map (DeclarationName.rekey_injective renumber)⟩

@[simp]
theorem declarations_rekey (buffer : DeclarationBuffer) :
    (buffer.rekey renumber).declarations = buffer.declarations.map (Declaration.rekey renumber) :=
  rfl

theorem names_rekey (buffer : DeclarationBuffer) :
    (buffer.rekey renumber).names = buffer.names.map (DeclarationName.rekey renumber) :=
  map_name_map_rekey renumber buffer.declarations

theorem mem_names_rekey {buffer : DeclarationBuffer} {name : DeclarationName} :
    name.rekey renumber ∈ (buffer.rekey renumber).names ↔ name ∈ buffer.names := by
  rw [names_rekey]
  exact List.mem_map_of_injective (DeclarationName.rekey_injective renumber)

theorem contains_rekey (buffer : DeclarationBuffer) (name : DeclarationName) :
    (buffer.rekey renumber).contains (name.rekey renumber) = buffer.contains name := by
  rw [Bool.eq_iff_iff, contains_iff, contains_iff, mem_names_rekey]

theorem register_rekey (buffer : DeclarationBuffer) (declaration : Declaration) :
    (buffer.rekey renumber).register (declaration.rekey renumber) =
      (buffer.register declaration).rekey renumber := by
  by_cases known : declaration.name ∈ buffer.names
  · have rekeyedKnown : (declaration.rekey renumber).name ∈ (buffer.rekey renumber).names :=
      (mem_names_rekey renumber).mpr known
    rw [register_of_mem known, register_of_mem rekeyedKnown]
  · have rekeyedFresh : (declaration.rekey renumber).name ∉ (buffer.rekey renumber).names :=
      fun member => known ((mem_names_rekey renumber).mp member)
    apply eq_of_declarations_eq
    rw [declarations_register_of_not_mem rekeyedFresh]
    simp [declarations_register_of_not_mem known]

end DeclarationBuffer

def Progress.rekey (progress : Progress) : Progress :=
  ⟨progress.buffer.rekey renumber, progress.degradations⟩

theorem Progress.contains_rekey (progress : Progress) (name : DeclarationName) :
    (progress.rekey renumber).buffer.contains (name.rekey renumber) =
      progress.buffer.contains name :=
  progress.buffer.contains_rekey renumber name

theorem Progress.register_rekey (progress : Progress) (declaration : Declaration) :
    (progress.rekey renumber).register (declaration.rekey renumber) =
      (progress.register declaration).rekey renumber := by
  simp only [register, rekey, DeclarationBuffer.register_rekey]

namespace SchemaNode

variable {known : List String}

theorem itemName_rekey (name : DeclarationName) :
    itemName (name.rekey renumber) = (itemName name).rekey renumber := by
  unfold itemName
  change (if name.isRoot then _ else _) = _
  split <;> rfl

theorem rekey_resolveReference {pointer : String} {type : TypeExpr}
    (resolved : resolveReference known pointer = .ok type) : type.rekey renumber = type := by
  obtain ⟨schema, _, rfl⟩ := covered_of_resolveReference resolved
  rfl

mutual

/-- Resolving under a renumbered name gives renumbered names. -/
theorem resolve_rekey (node : SchemaNode) (name : DeclarationName) (progress : Progress) :
    node.resolve known (name.rekey renumber) (progress.rekey renumber) =
      ((node.resolve known name progress).1.rekey renumber,
        (node.resolve known name progress).2.rekey renumber) := by
  match node with
  | primitive _ | any | object none _ => rfl
  | reference pointer =>
      simp only [resolve]
      cases resolved : resolveReference known pointer with
      | error issue => rfl
      | ok type => exact Prod.ext (rekey_resolveReference renumber resolved).symm rfl
  | array item =>
      simp only [resolve, itemName_rekey, resolve_rekey item (itemName name) progress]
      rfl
  | object (some members) required =>
      simp only [resolve, Progress.contains_rekey]
      split
      · rfl
      · rw [resolveMembers_rekey required name members progress]
        exact Prod.ext rfl (Progress.register_rekey renumber
          (resolveMembers known required name members progress).2 ⟨name, .interface _⟩)

theorem resolveMembers_rekey (required : List String) (owner : DeclarationName)
    (members : List (String × SchemaNode)) (progress : Progress) :
    resolveMembers known required (owner.rekey renumber) members (progress.rekey renumber) =
      ((resolveMembers known required owner members progress).1.map
          (Property.mapNames (DeclarationName.rekey renumber)),
        (resolveMembers known required owner members progress).2.rekey renumber) := by
  match members with
  | [] => rfl
  | (key, node) :: rest =>
      have first := resolve_rekey node (owner.child key) progress
      have others := resolveMembers_rekey required owner rest
        (node.resolve known (owner.child key) progress).2
      have sameChild : (owner.rekey renumber).child key = (owner.child key).rekey renumber := rfl
      simp only [resolveMembers_cons, sameChild, first, others]
      rfl

end

end SchemaNode

namespace TypeExpr

theorem element_rekey (type : TypeExpr) :
    (type.rekey renumber).element = type.element.rekey renumber := by
  induction type with
  | array item ih => exact ih
  | _ => rfl

theorem depth_rekey (type : TypeExpr) : (type.rekey renumber).depth = type.depth := by
  induction type with
  | array item ih => exact congrArg (· + 1) ih
  | _ => rfl

theorem wrapArrays_rekey (type : TypeExpr) (layers : Nat) :
    (type.rekey renumber).wrapArrays layers = (type.wrapArrays layers).rekey renumber := by
  induction layers with
  | zero => rfl
  | succ layers ih => exact congrArg array ih

end TypeExpr

/-- A result with the names of the renumbered operations. -/
def Resolved.rekey {α : Type} (onResult : α → α) (resolved : Resolved α) : Resolved α :=
  ⟨onResult resolved.result, resolved.declarations.rekey renumber, resolved.warnings⟩

def ClientMethod.rekey (method : ClientMethod) : ClientMethod :=
  { method.mapNames (DeclarationName.rekey renumber) with key := renumber method.key }

def CompiledOperation.rekey (compiled : CompiledOperation) : CompiledOperation :=
  ⟨compiled.method.rekey renumber, compiled.declarations.rekey renumber⟩

namespace Operation

/-- An operation with another key and other tags. -/
def rekey (operation : Operation) (tags : List String) : Operation :=
  { operation with key := renumber operation.key, tags := tags }

variable {known : List String}

theorem resolveUnder_rekey (origin : String) (node : SchemaNode) (name : DeclarationName)
    (before : DeclarationBuffer) :
    resolveUnder known origin node (name.rekey renumber) (before.rekey renumber) =
      (resolveUnder known origin node name before).rekey renumber (TypeExpr.rekey renumber) := by
  have start : (⟨before.rekey renumber, []⟩ : Progress) =
      (⟨before, []⟩ : Progress).rekey renumber := rfl
  simp only [resolveUnder, start, SchemaNode.resolve_rekey]
  rfl

theorem resolveParameter_rekey (label : String) (owner : DeclarationName) (parameter : Parameter)
    (before : DeclarationBuffer) :
    resolveParameter known label (owner.rekey renumber) parameter (before.rekey renumber) =
      (resolveParameter known label owner parameter before).rekey renumber
        (TypeExpr.rekey renumber) := by
  unfold resolveParameter
  cases parameter.schema with
  | none => rfl
  | some node => exact resolveUnder_rekey renumber _ node (owner.child parameter.name) before

theorem queryMembers_rekey (label : String) (owner : DeclarationName) (parameters : List Parameter)
    (before : DeclarationBuffer) :
    queryMembers known label (owner.rekey renumber) parameters (before.rekey renumber) =
      (queryMembers known label owner parameters before).rekey renumber
        (List.map (Property.mapNames (DeclarationName.rekey renumber))) := by
  induction parameters generalizing before with
  | nil => rfl
  | cons parameter rest ih =>
      simp only [queryMembers, resolveParameter_rekey]
      have others := ih (resolveParameter known label owner parameter before).declarations
      simp only [Resolved.rekey] at others ⊢
      rw [others]
      rfl

theorem compileNamed_rekey (origin : String) (name : DeclarationName) (node : SchemaNode)
    (before : DeclarationBuffer) :
    compileNamed known origin (name.rekey renumber) node (before.rekey renumber) =
      (compileNamed known origin name node before).rekey renumber (TypeExpr.rekey renumber) := by
  unfold compileNamed
  simp only [resolveUnder_rekey, Resolved.rekey, TypeExpr.element_rekey, TypeExpr.depth_rekey]
  cases core : (resolveUnder known origin node name before).result.element with
  | named target =>
      -- an alias is declared before renumbering exactly if it is declared after
      have sameTarget : target.rekey renumber = name.rekey renumber ↔ target = name :=
        (DeclarationName.rekey_injective renumber).eq_iff
      have layers := TypeExpr.wrapArrays_rekey renumber (.named name)
        (resolveUnder known origin node name before).result.depth
      simp only [TypeExpr.rekey, TypeExpr.mapNames, sameTarget] at layers ⊢
      split
      · rw [layers]
      · have registered := DeclarationBuffer.register_rekey renumber
          (resolveUnder known origin node name before).declarations
          ⟨name, .typeAlias (.named target)⟩
        exact congrArg₂ (Resolved.mk · · _) layers registered
  | _ => rfl

theorem compileQuery_rekey (operation : Operation) (tags : List String)
    (before : DeclarationBuffer) :
    (operation.rekey renumber tags).compileQuery known (before.rekey renumber) =
      (operation.compileQuery known before).rekey renumber
        (Option.map (TypeExpr.rekey renumber)) := by
  have sameParameters : (operation.rekey renumber tags).parametersIn .query =
    operation.parametersIn .query := rfl
  rw [compileQuery, compileQuery, sameParameters]
  cases operation.parametersIn .query with
  | nil => rfl
  | cons parameter rest =>
      have members := @queryMembers_rekey renumber known operation.label
        (.ofOperation .query operation.key) (parameter :: rest) before
      have registered := fun members : Resolved (List Property) =>
        DeclarationBuffer.register_rekey renumber members.declarations
          ⟨.ofOperation .query operation.key, .interface members.result⟩
      have declared := congrArg (fun members : Resolved (List Property) =>
        Resolved.mk (some (TypeExpr.named (.ofOperation .query (renumber operation.key))))
          (members.declarations.register
            ⟨.ofOperation .query (renumber operation.key), .interface members.result⟩)
          members.warnings) members
      exact declared.trans (congrArg (Resolved.mk _ · _) (registered _))

theorem compileBody_rekey (operation : Operation) (tags : List String)
    (before : DeclarationBuffer) :
    (operation.rekey renumber tags).compileBody known (before.rekey renumber) =
      (operation.compileBody known before).rekey renumber
        (Option.map (TypeExpr.rekey renumber)) := by
  have sameBody : (operation.rekey renumber tags).requestBody = operation.requestBody := rfl
  rw [compileBody, compileBody, sameBody]
  cases operation.requestBody with
  | none => rfl
  | some node =>
      have named := @compileNamed_rekey renumber known (operation.label ++ " request body")
        (.ofOperation .body operation.key) node before
      exact congrArg (fun named : Resolved TypeExpr =>
        { named with result := some named.result }) named

theorem compileResponse_rekey (operation : Operation) (tags : List String)
    (before : DeclarationBuffer) :
    (operation.rekey renumber tags).compileResponse known (before.rekey renumber) =
      (operation.compileResponse known before).rekey renumber (TypeExpr.rekey renumber) := by
  have sameResponse : (operation.rekey renumber tags).response = operation.response := rfl
  rw [compileResponse, compileResponse, sameResponse]
  cases operation.response with
  | none => rfl
  | some node =>
      exact compileNamed_rekey renumber (operation.label ++ " response")
        (.ofOperation .response operation.key) node before

variable [Text.Conversions]

/-- The arguments of placeholders have no names. -/
theorem map_mapNames_pathArguments (change : DeclarationName → DeclarationName)
    (operation : Operation) :
    operation.pathArguments.map (PathArgument.mapNames change) = operation.pathArguments := by
  rw [pathArguments, List.map_map]
  rfl

/-- With another key an operation compiles to the same method and declarations under the
other key, with the same warnings. -/
theorem compile_rekey (operation : Operation) (tags : List String) :
    (operation.rekey renumber tags).compile known =
      ((operation.compile known).1.rekey renumber, (operation.compile known).2) := by
  have query := @compileQuery_rekey renumber known operation tags .empty
  have body := @compileBody_rekey renumber known operation tags
    (operation.compileQuery known .empty).declarations
  have response := @compileResponse_rekey renumber known operation tags
    (operation.compileBody known (operation.compileQuery known .empty).declarations).declarations
  have arguments := map_mapNames_pathArguments (DeclarationName.rekey renumber) operation
  have noDeclarations : DeclarationBuffer.empty.rekey renumber = .empty := rfl
  rw [noDeclarations] at query
  simp only [compile, query, Resolved.rekey, body, response, CompiledOperation.rekey,
    ClientMethod.rekey, ClientMethod.mapNames, arguments]
  rfl

end Operation

end TypedClient
