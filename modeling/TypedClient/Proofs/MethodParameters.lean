import TypedClient.Proofs.CompiledOperationOutline
import TypedClient.Proofs.GeneratedIdentifiers

/-!
# The names that a method binds

A method binds an argument for each placeholder of its path, and its query, its body and the
configuration of the request under names of their own. The guard keeps the arguments apart
from these. Each argument is made from its placeholder alone, so two placeholders can get
the same argument, and an argument can hide the transport that the body of a method calls.
-/

namespace TypedClient

namespace Identifier

variable {first second text : List Char}

theorem isGuarded_iff : IsGuarded text ↔
    text.head?.any Char.isDigit = false ∧ String.ofList text ∉ reservedWords :=
  ⟨fun guarded => ⟨guarded.noDigit, guarded.notReserved⟩,
    fun conditions => ⟨conditions.1, conditions.2⟩⟩

instance (text : List Char) : Decidable (IsGuarded text) :=
  decidable_of_iff' _ isGuarded_iff

theorem guardChars_eq_cons (unguarded : ¬ IsGuarded text) : guardChars text = '_' :: text := by
  rw [guardChars, if_pos]
  rw [isGuarded_iff, not_and_or, not_not, Bool.not_eq_false] at unguarded
  simpa using unguarded

/-- A text that the guard changes, and what the guard makes of it. -/
def IsGuardOf (text guarded : List Char) : Prop :=
  ¬ IsGuarded text ∧ guarded = '_' :: text

instance (text guarded : List Char) : Decidable (IsGuardOf text guarded) :=
  inferInstanceAs (Decidable (_ ∧ _))

theorem guardChars_eq_of_isGuardOf (isGuard : IsGuardOf first second) :
    guardChars first = guardChars second := by
  obtain ⟨unguarded, rfl⟩ := isGuard
  have guarded : guardChars first = '_' :: first := guardChars_eq_cons unguarded
  rw [guarded, guardChars_eq_self (guarded ▸ isGuarded_guardChars first)]

/-- The guard tells texts apart, except for one that it changes and what it makes of it. -/
theorem guardChars_eq_guardChars_iff :
    guardChars first = guardChars second ↔
      first = second ∨ IsGuardOf first second ∨ IsGuardOf second first := by
  constructor
  · intro same
    by_cases firstGuarded : IsGuarded first <;> by_cases secondGuarded : IsGuarded second
    · rw [guardChars_eq_self firstGuarded, guardChars_eq_self secondGuarded] at same
      exact Or.inl same
    · rw [guardChars_eq_self firstGuarded, guardChars_eq_cons secondGuarded] at same
      exact Or.inr (Or.inr ⟨secondGuarded, same⟩)
    · rw [guardChars_eq_cons firstGuarded, guardChars_eq_self secondGuarded] at same
      exact Or.inr (Or.inl ⟨firstGuarded, same.symm⟩)
    · rw [guardChars_eq_cons firstGuarded, guardChars_eq_cons secondGuarded] at same
      exact Or.inl (List.cons.inj same).2
  · rintro (rfl | isGuard | isGuard)
    · rfl
    · exact guardChars_eq_of_isGuardOf isGuard
    · exact (guardChars_eq_of_isGuardOf isGuard).symm

theorem guardChars_eq_iff (guarded : IsGuarded second) (noUnderscore : second.head? ≠ some '_') :
    guardChars first = second ↔ first = second := by
  constructor
  · intro same
    by_cases firstGuarded : IsGuarded first
    · rwa [guardChars_eq_self firstGuarded] at same
    · rw [guardChars_eq_cons firstGuarded] at same
      exact absurd (same ▸ rfl) noUnderscore
  · rintro rfl
    exact guardChars_eq_self guarded

variable [Text.Conversions]

/-- What the argument of a placeholder is before it is guarded: a valid identifier as it is
written, and anything else in camel case. -/
def argumentBase (name : List Char) : List Char :=
  if validChars name then
    name
  else
    match camelIdentifier name with
    | [] => "param".toList
    | cleaned => cleaned

theorem argumentNameChars_eq_guardChars (name : List Char) :
    argumentNameChars name = guardChars (argumentBase name) := by
  unfold argumentNameChars argumentBase
  split
  case isTrue => rfl
  case isFalse =>
    cases camelIdentifier name with
    | nil => decide
    | cons first rest => rfl

/-- Two placeholders are made into the same argument. -/
def ShareArgument (placeholder other : String) : Prop :=
  argumentBase placeholder.toList = argumentBase other.toList ∨
    IsGuardOf (argumentBase placeholder.toList) (argumentBase other.toList) ∨
      IsGuardOf (argumentBase other.toList) (argumentBase placeholder.toList)

instance (placeholder other : String) : Decidable (ShareArgument placeholder other) :=
  inferInstanceAs (Decidable (_ ∨ _ ∨ _))

theorem argumentName_eq_argumentName_iff {placeholder other : String} :
    argumentName placeholder = argumentName other ↔ ShareArgument placeholder other := by
  rw [argumentName, argumentName, String.ofList_inj, argumentNameChars_eq_guardChars,
    argumentNameChars_eq_guardChars, guardChars_eq_guardChars_iff, ShareArgument]

end Identifier

namespace ClientMethod

/-- The name under which a module imports the transport. -/
def transportName : String := "$http"

/-- The names that are bound in the same way in every method. -/
def fixedNames : List String := [queryArgument, bodyArgument, configArgument]

/-- The names that the parameter list of a method binds, from left to right. -/
def boundNames (method : ClientMethod) : List String :=
  method.typedArguments.map Prod.fst ++ [configArgument]

/-- A parameter list that binds the given names, each with its type. -/
def BindsParameters (names : List String) (text : String) : Prop :=
  ∃ items, List.Forall₂ (fun name item => ∃ typeText, item = name ++ ": " ++ typeText)
    names items ∧ text = String.intercalate ", " items

variable [Text.Conversions]

/-- The body of a method: the transport is called with the fields of the request. -/
def bodyText (method : ClientMethod) : String :=
  "    return " ++ transportName ++ ".request(\x7b " ++
    String.intercalate ", " method.requestFields ++ " \x7d)\n  \x7d"

/-- The text of a method binds its names in the parameter list, and its body follows. -/
def IsWrittenAs (method : ClientMethod) (text : String) : Prop :=
  ∃ parameters response, BindsParameters method.boundNames parameters ∧
    text = Comment.ofMethod method.summary method.description method.deprecated ++ "  " ++
      method.functionName ++ "(" ++ parameters ++ "): Promise<ResponseType<" ++ response ++
      ">> \x7b\n" ++ method.bodyText

variable {table : NameTable} {method : ClientMethod} {text : String}

theorem bindsParameters_of_argumentList (rendered : method.argumentList table = .ok text) :
    BindsParameters method.boundNames text := by
  obtain ⟨items, typed, rfl⟩ := map_eq_ok_iff.mp rendered
  refine ⟨items ++ [configArgument ++ ": AxiosRequestConfig = \x7b\x7d"], ?_, rfl⟩
  refine List.rel_append ?_ (.cons ⟨"AxiosRequestConfig = \x7b\x7d", by decide⟩ .nil)
  refine List.forall₂_map_left_iff.mpr ((forall₂_of_mapM_eq_ok typed).imp ?_)
  intro argument item written
  obtain ⟨typeText, -, same⟩ := map_eq_ok_iff.mp written
  exact ⟨typeText, same.symm⟩

theorem isWrittenAs_of_render (rendered : method.render table = .ok text) :
    method.IsWrittenAs text := by
  obtain ⟨parameters, argumentsEq, rendered⟩ := bind_eq_ok_iff.mp rendered
  obtain ⟨response, -, rendered⟩ := bind_eq_ok_iff.mp rendered
  refine ⟨parameters, response, bindsParameters_of_argumentList argumentsEq, ?_⟩
  rw [← Except.ok.inj rendered]
  apply String.toList_injective
  simp [bodyText, transportName]

end ClientMethod

namespace Operation

open ClientMethod (transportName fixedNames queryArgument bodyArgument configArgument)

/-- The names that the method of an operation binds besides its path arguments. -/
def boundFixedNames (operation : Operation) : List String :=
  (if operation.parametersIn .query = [] then [] else [queryArgument]) ++
    (if operation.requestBody = none then [] else [bodyArgument]) ++ [configArgument]

theorem boundFixedNames_sublist (operation : Operation) :
    operation.boundFixedNames.Sublist fixedNames := by
  unfold boundFixedNames fixedNames
  split <;> split <;> decide

section Names

variable [Text.Conversions]

/-- With a name for the operation in the table, the method of the operation can be written. -/
theorem exists_render_compile (operation : Operation) (known : List String) {table : NameTable}
    {function : String} (bound : table.function? operation.key = some function) :
    ∃ text, (operation.compile known).1.method.render table = .ok text ∧
      (operation.compile known).1.method.IsWrittenAs text := by
  have growth := compile_growth known operation
  have canRender : ∀ name ∈ (operation.compile known).1.method.references,
      table.CanRender name := by
    intro name member
    rcases growth.typesCovered name member with declared | ⟨schema, -, rfl⟩
    · obtain ⟨declaration, isDeclared, rfl⟩ := List.mem_map.mp declared
      exact NameTable.canRender_of_function (growth.ofKind declaration isDeclared) bound
    · exact NameTable.canRender_of_schema rfl
  obtain ⟨text, rendered⟩ := ClientMethod.exists_render_eq_ok canRender
  exact ⟨text, rendered, ClientMethod.isWrittenAs_of_render rendered⟩

theorem boundNames_compile (operation : Operation) (known : List String) :
    (operation.compile known).1.method.boundNames =
      (Path.placeholders operation.path).map Identifier.argumentName ++
        operation.boundFixedNames := by
  have query : (operation.compile known).1.method.query.toList.map (fun _ => queryArgument) =
      if operation.parametersIn .query = [] then [] else [queryArgument] := by
    change (operation.compileQuery known .empty).result.toList.map (fun _ => queryArgument) = _
    unfold compileQuery
    cases operation.parametersIn .query <;> rfl
  have body : (operation.compile known).1.method.body.toList.map (fun _ => bodyArgument) =
      if operation.requestBody = none then [] else [bodyArgument] := by
    change (operation.compileBody known _).result.toList.map (fun _ => bodyArgument) = _
    unfold compileBody
    cases operation.requestBody <;> rfl
  have arguments : operation.pathArguments.map PathArgument.name =
      (Path.placeholders operation.path).map Identifier.argumentName := by
    rw [pathArguments, List.map_map]
    rfl
  rw [boundFixedNames, ← query, ← body, ← arguments, ClientMethod.boundNames,
    ClientMethod.typedArguments]
  simp [Function.comp_def, compile]

theorem argumentName_not_mem_fixedNames (placeholder : String) :
    Identifier.argumentName placeholder ∉ fixedNames := by
  have reserved : ∀ name ∈ fixedNames, name ∈ Identifier.reservedWords := by decide
  exact fun member =>
    (Identifier.isArgument_argumentName placeholder).notReserved (reserved _ member)

theorem name_not_mem_fixedNames {operation : Operation} {argument : PathArgument}
    (member : argument ∈ operation.pathArguments) : argument.name ∉ fixedNames := by
  obtain ⟨placeholder, _, rfl⟩ := List.mem_map.mp member
  exact argumentName_not_mem_fixedNames placeholder

/-- What is known of the names that the method of an operation binds. -/
structure BindsNames (operation : Operation) (method : ClientMethod) : Prop where
  boundNames_eq : method.boundNames =
    (Path.placeholders operation.path).map Identifier.argumentName ++ operation.boundFixedNames
  fixedDistinct : operation.boundFixedNames.Nodup
  notFixed : ∀ argument ∈ method.pathArguments, argument.name ∉ fixedNames
  distinct_iff : method.boundNames.Nodup ↔ (Path.placeholders operation.path).Pairwise
    fun placeholder other => ¬ Identifier.ShareArgument placeholder other

/-- The method of an operation binds its names in its parameter list. They are distinct
exactly if no two placeholders share an argument, since the fixed names are apart from each
other and from all arguments. -/
theorem compile_bindsNames (operation : Operation) (known : List String) :
    operation.BindsNames (operation.compile known).1.method ∧
      ∀ table function, table.function? operation.key = some function →
        ∃ text, (operation.compile known).1.method.render table = .ok text ∧
          (operation.compile known).1.method.IsWrittenAs text := by
  have fixedDistinct : operation.boundFixedNames.Nodup :=
    operation.boundFixedNames_sublist.nodup (by decide)
  have apart : ∀ name ∈ (Path.placeholders operation.path).map Identifier.argumentName,
      ∀ fixed ∈ operation.boundFixedNames, name ≠ fixed := by
    rintro _ member fixed isFixed rfl
    obtain ⟨placeholder, _, same⟩ := List.mem_map.mp member
    exact argumentName_not_mem_fixedNames placeholder
      (same ▸ operation.boundFixedNames_sublist.subset isFixed)
  refine ⟨⟨boundNames_compile operation known, fixedDistinct, fun _ => name_not_mem_fixedNames,
    ?distinct⟩, fun _ _ => exists_render_compile operation known⟩
  case distinct =>
    rw [boundNames_compile, List.nodup_append, List.Nodup, List.pairwise_map]
    simp only [ne_eq, Identifier.argumentName_eq_argumentName_iff]
    exact ⟨fun distinct => distinct.1, fun distinct => ⟨distinct, fixedDistinct, apart⟩⟩

/-- The placeholders whose argument is called like the transport: its name, and what is no
identifier but has the same letters in camel case. -/
def MeansTransport (placeholder : String) : Prop :=
  placeholder = transportName ∨ Identifier.isValid placeholder = false ∧
    Identifier.camelIdentifier placeholder.toList = transportName.toList

theorem argumentName_eq_transportName_iff {placeholder : String} :
    Identifier.argumentName placeholder = transportName ↔ MeansTransport placeholder := by
  have guarded : Identifier.IsGuarded transportName.toList := ⟨by decide, by decide⟩
  have noUnderscore : transportName.toList.head? ≠ some '_' := by decide
  have isIdentifier : Identifier.isValid transportName = true := by decide
  rw [MeansTransport, Identifier.argumentName, ← String.toList_inj, String.toList_ofList,
    Identifier.argumentNameChars_eq_guardChars,
    Identifier.guardChars_eq_iff guarded noUnderscore, Identifier.argumentBase]
  by_cases valid : Identifier.isValid placeholder = true
  · have validChars : Identifier.validChars placeholder.toList = true := valid
    rw [if_pos validChars, String.toList_inj]
    simp [valid]
  · have invalidChars : ¬ Identifier.validChars placeholder.toList = true := valid
    have different : placeholder ≠ transportName := fun same => valid (same ▸ isIdentifier)
    rw [if_neg invalidChars]
    split
    · rename_i empty
      have isDefault : "param".toList ≠ transportName.toList := by decide
      have notEmpty : [] ≠ transportName.toList := by decide
      rw [empty]
      exact iff_of_false isDefault fun means => means.elim different fun same => notEmpty same.2
    · simp [valid, different]

/-- In the body of a method, the transport is the imported one exactly if no placeholder has
an argument of that name. The fixed names that the body uses are no arguments. -/
theorem transportName_mem_boundNames_iff (operation : Operation) (known : List String) :
    (transportName ∈ (operation.compile known).1.method.boundNames ↔
      ∃ placeholder ∈ Path.placeholders operation.path, MeansTransport placeholder) ∧
    (∀ argument ∈ (operation.compile known).1.method.pathArguments,
      argument.name ∉ fixedNames) ∧
    ∀ table function, table.function? operation.key = some function →
      ∃ text, (operation.compile known).1.method.render table = .ok text ∧
        (operation.compile known).1.method.IsWrittenAs text := by
  refine ⟨?_, ?_, fun _ _ => exists_render_compile operation known⟩
  · have notFixed : transportName ∉ operation.boundFixedNames := fun isFixed =>
      absurd (operation.boundFixedNames_sublist.subset isFixed) (by decide)
    simp [boundNames_compile, notFixed, argumentName_eq_transportName_iff]
  · exact fun _ => name_not_mem_fixedNames

end Names

/-- An operation with nothing but a path. -/
def ofPath (path : String) : Operation :=
  ⟨0, .get, path, [], [], none, none, none, none, false⟩

section Samples

/-- The camel cases of the placeholders that are no identifiers. -/
@[reducible]
def sampleConversions : Text.Conversions :=
  .ofCamelCases [("post-id", "postId"), ("pet-id", "petId"), ("$-http", "$Http")]

attribute [local instance] sampleConversions

theorem compile_bindsNames_nestedSample :
    ((ofPath "/\x7bpost-id\x7d/\x7bclass\x7d").compile []).1.method.boundNames.Nodup ∧
      ∃ text, ((ofPath "/\x7bpost-id\x7d/\x7bclass\x7d").compile []).1.method.render
        ⟨[(0, "getByPostIdByClass")], []⟩ = .ok text := by
  obtain ⟨binds, written⟩ := compile_bindsNames (ofPath "/\x7bpost-id\x7d/\x7bclass\x7d") []
  have placeholders : Path.placeholders "/\x7bpost-id\x7d/\x7bclass\x7d" =
      ["post-id", "class"] := by
    cbv
  have apart : (Path.placeholders "/\x7bpost-id\x7d/\x7bclass\x7d").Pairwise
      fun placeholder other => ¬ Identifier.ShareArgument placeholder other := by
    rw [placeholders]
    decide
  obtain ⟨text, rendered, -⟩ := written ⟨[(0, "getByPostIdByClass")], []⟩ _ rfl
  exact ⟨binds.distinct_iff.mpr apart, text, rendered⟩

/-- Two placeholders that are the same in camel case. -/
theorem not_nodup_boundNames_camelSample :
    ¬ ∀ (operation : Operation) (known : List String),
      (operation.compile known).1.method.boundNames.Nodup := by
  intro distinct
  have placeholders : Path.placeholders "/pets/\x7bpet-id\x7d/\x7bpetId\x7d" =
      ["pet-id", "petId"] := by
    cbv
  have same : Identifier.argumentName "pet-id" = Identifier.argumentName "petId" := by decide
  have names := distinct (ofPath "/pets/\x7bpet-id\x7d/\x7bpetId\x7d") []
  rw [boundNames_compile, ofPath, placeholders] at names
  have argumentsDistinct := (List.nodup_append.mp names).1
  simp [same] at argumentsDistinct

theorem transportName_mem_boundNames_iff_spacedSample :
    transportName ∉ ((ofPath "/pets/\x7b$-http\x7d").compile []).1.method.boundNames ∧
      ∃ text, ((ofPath "/pets/\x7b$-http\x7d").compile []).1.method.render
        ⟨[(0, "getPetsByHttp")], []⟩ = .ok text := by
  obtain ⟨hidden, -, written⟩ :=
    transportName_mem_boundNames_iff (ofPath "/pets/\x7b$-http\x7d") []
  have placeholders : Path.placeholders "/pets/\x7b$-http\x7d" = ["$-http"] := by
    cbv
  obtain ⟨text, rendered, -⟩ := written ⟨[(0, "getPetsByHttp")], []⟩ _ rfl
  refine ⟨fun member => ?_, text, rendered⟩
  obtain ⟨placeholder, isPlaceholder, means⟩ := hidden.mp member
  rw [ofPath, placeholders, List.mem_singleton] at isPlaceholder
  subst isPlaceholder
  rcases means with same | ⟨-, same⟩ <;> exact absurd same (by decide)

/-- A placeholder that is called like the transport. -/
theorem not_transportName_not_mem_boundNames :
    ¬ ∀ (operation : Operation) (known : List String),
      transportName ∉ (operation.compile known).1.method.boundNames := by
  intro apart
  have placeholders : Path.placeholders "/pets/\x7b$http\x7d" = ["$http"] := by
    cbv
  refine apart (ofPath "/pets/\x7b$http\x7d") [] ?_
  rw [boundNames_compile, ofPath, placeholders]
  exact List.mem_append_left _ (by decide)

end Samples

end Operation

end TypedClient
