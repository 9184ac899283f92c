import TypedClient.Proofs.FirstOccurrences
import TypedClient.Proofs.TagModuleGrowth

/-!
# Offering operations to a module

Operations are offered to a module one after the other, with whatever keys, method names and
declarations. The module takes those that share neither key nor method name with one it has
taken, and refuses the others without a trace. So its methods, its bindings and its
declarations are at all times those of the operations it has taken.
-/

namespace TypedClient

/-- Declarations of a name that is taken, or repeated, are left out. -/
theorem DeclarationBuffer.declarations_registerAll (buffer : DeclarationBuffer)
    (declarations : List Declaration) :
    (buffer.registerAll declarations).declarations =
      buffer.declarations ++ firstsFrom Declaration.name buffer.names declarations := by
  induction declarations generalizing buffer with
  | nil => exact (List.append_nil _).symm
  | cons first rest ih =>
      have step : buffer.registerAll (first :: rest) =
          (buffer.register first).registerAll rest := rfl
      have sameNames : firstsFrom Declaration.name (buffer.register first).names rest =
          firstsFrom Declaration.name (first.name :: buffer.names) rest :=
        firstsFrom_congr fun name => by rw [mem_names_register, List.mem_cons, or_comm]
      rw [step, ih, sameNames, firstsFrom_cons]
      by_cases known : first.name ∈ buffer.names
      · rw [register_of_mem known, if_pos known]
      · rw [declarations_register_of_not_mem known, if_neg known, List.append_assoc]
        rfl

namespace NameTable

variable {table : NameTable} {key : Nat} {function : String}

theorem function?_append (bound : table.function? key = some function)
    (more : List (Nat × String)) :
    function? { table with functions := table.functions ++ more } key = some function := by
  have found : table.functions.lookup key = some function := bound
  rw [function?, List.lookup_append, found, Option.some_or]

theorem function?_eq_of_mem (distinct : (table.functions.map Prod.fst).Nodup)
    (member : (key, function) ∈ table.functions) : table.function? key = some function := by
  obtain ⟨found, isFound⟩ := exists_function?_of_mem (List.mem_map_of_mem member)
  have same : (key, found) = (key, function) :=
    List.inj_on_of_nodup_map distinct (mem_functions_of_function? isFound) member rfl
  obtain ⟨-, rfl⟩ := Prod.mk.inj same
  exact isFound

theorem mem_keys_iff :
    key ∈ table.functions.map Prod.fst ↔ ∃ function, table.function? key = some function :=
  ⟨exists_function?_of_mem, fun ⟨_, bound⟩ =>
    List.mem_map_of_mem (mem_functions_of_function? bound)⟩

theorem mem_functionNames_iff (distinct : (table.functions.map Prod.fst).Nodup) :
    function ∈ table.functions.map Prod.snd ↔ ∃ key, table.function? key = some function := by
  constructor
  · intro member
    obtain ⟨⟨key, _⟩, isBinding, rfl⟩ := List.mem_map.mp member
    exact ⟨key, function?_eq_of_mem distinct isBinding⟩
  · rintro ⟨key, bound⟩
    exact List.mem_map_of_mem (mem_functions_of_function? bound)

end NameTable

/-- Two operations cannot both have a method in one module: they share the key or the method
name. -/
def CompiledOperation.ClashesWith (first second : CompiledOperation) : Prop :=
  first.method.key = second.method.key ∨
    first.method.functionName = second.method.functionName

instance (first second : CompiledOperation) : Decidable (first.ClashesWith second) :=
  inferInstanceAs (Decidable (_ ∨ _))

/-- The operations that are taken after some others have been, if one more is offered. -/
def takenWith (taken : List CompiledOperation) (compiled : CompiledOperation) :
    List CompiledOperation :=
  if ∃ other ∈ taken, compiled.ClashesWith other then taken else taken ++ [compiled]

/-- Of operations that are offered one after the other, those that clash with none that was
taken before. -/
def takenOf (offered : List CompiledOperation) : List CompiledOperation :=
  offered.foldl takenWith []

theorem mem_of_mem_foldl_takenWith {offered taken : List CompiledOperation}
    {compiled : CompiledOperation} (member : compiled ∈ offered.foldl takenWith taken) :
    compiled ∈ taken ∨ compiled ∈ offered := by
  induction offered generalizing taken with
  | nil => exact Or.inl member
  | cons first rest ih =>
      rcases ih member with early | later
      · rw [takenWith] at early
        split at early
        · exact Or.inl early
        · rcases List.mem_append.mp early with old | isFirst
          · exact Or.inl old
          · rw [List.mem_singleton.mp isFirst]
            exact Or.inr List.mem_cons_self
      · exact Or.inr (List.mem_cons_of_mem _ later)

theorem mem_of_mem_takenOf {offered : List CompiledOperation} {compiled : CompiledOperation}
    (member : compiled ∈ takenOf offered) : compiled ∈ offered :=
  (mem_of_mem_foldl_takenWith member).resolve_left List.not_mem_nil

namespace TagModule

/-- Offers an operation to a module, which stays as it is if it refuses the operation. -/
def offer (module : TagModule) (compiled : CompiledOperation) : TagModule :=
  (module.absorb? compiled).getD module

def offerAll (module : TagModule) (offered : List CompiledOperation) : TagModule :=
  offered.foldl offer module

/-- A module that has taken some operations, in order. -/
structure HasTaken (renamed : List (DeclarationName × String)) (taken : List CompiledOperation)
    (module : TagModule) : Prop where
  apart : taken.Pairwise fun first second => ¬ second.ClashesWith first
  methods_eq : module.methods = taken.map CompiledOperation.method
  table_eq : module.table =
    ⟨taken.map fun compiled => (compiled.method.key, compiled.method.functionName), renamed⟩
  declarations_eq : module.declarations.declarations =
    firsts Declaration.name (taken.flatMap fun compiled => compiled.declarations.declarations)

variable {renamed : List (DeclarationName × String)} {taken : List CompiledOperation}
  {module : TagModule} {compiled : CompiledOperation}

theorem hasTaken_new (tag : String) (names : TagNames) :
    HasTaken renamed [] (new tag names renamed) where
  apart := .nil
  methods_eq := rfl
  table_eq := rfl
  declarations_eq := rfl

namespace HasTaken

theorem keys_eq (holds : module.HasTaken renamed taken) :
    module.table.functions.map Prod.fst =
      taken.map fun compiled => compiled.method.key := by
  rw [holds.table_eq, List.map_map]
  rfl

theorem functionNames_eq (holds : module.HasTaken renamed taken) :
    module.table.functions.map Prod.snd =
      taken.map fun compiled => compiled.method.functionName := by
  rw [holds.table_eq, List.map_map]
  rfl

theorem exists_clashesWith_iff (holds : module.HasTaken renamed taken) :
    (∃ other ∈ taken, compiled.ClashesWith other) ↔
      compiled.method.key ∈ module.table.functions.map Prod.fst ∨
        compiled.method.functionName ∈ module.table.functions.map Prod.snd := by
  simp only [CompiledOperation.ClashesWith, holds.keys_eq, holds.functionNames_eq, List.mem_map,
    and_or_left, exists_or, eq_comm]

theorem offer (holds : module.HasTaken renamed taken) :
    (module.offer compiled).HasTaken renamed (takenWith taken compiled) := by
  by_cases clashes : ∃ other ∈ taken, compiled.ClashesWith other
  · have refused := absorb?_eq_none_iff.mpr (holds.exists_clashesWith_iff.mp clashes)
    rw [takenWith, if_pos clashes, TagModule.offer, refused]
    exact holds
  · have fresh := holds.exists_clashesWith_iff.not.mp clashes
    rw [not_or] at fresh
    have absorbed := (@absorb?_eq_some_iff module _ compiled).mpr ⟨fresh.1, fresh.2, rfl⟩
    rw [takenWith, if_neg clashes, TagModule.offer, absorbed, Option.getD_some]
    refine ⟨?apart, ?methods_eq, ?table_eq, ?declarations_eq⟩
    case apart =>
      refine List.pairwise_append.mpr ⟨holds.apart, List.pairwise_singleton _ _, ?_⟩
      intro other member last isLast
      rw [List.mem_singleton.mp isLast]
      exact fun clash => clashes ⟨other, member, clash⟩
    case methods_eq => simp [holds.methods_eq]
    case table_eq => simp [holds.table_eq]
    case declarations_eq =>
      -- names in the buffer are skipped, as going on with first occurrences skips them
      rw [DeclarationBuffer.declarations_registerAll, DeclarationBuffer.names,
        holds.declarations_eq, List.flatMap_append, List.flatMap_singleton, firsts_append]
      exact congrArg _ (firstsFrom_congr fun name => mem_map_firsts)

theorem offerAll (holds : module.HasTaken renamed taken) (offered : List CompiledOperation) :
    (module.offerAll offered).HasTaken renamed (offered.foldl takenWith taken) := by
  induction offered generalizing module taken with
  | nil => exact holds
  | cons first rest ih => exact ih holds.offer

theorem nodup (holds : module.HasTaken renamed taken) :
    (taken.map fun compiled => compiled.method.key).Nodup ∧
      (taken.map fun compiled => compiled.method.functionName).Nodup := by
  constructor
  · exact List.pairwise_map.mpr (holds.apart.imp fun apart same => apart (Or.inl same.symm))
  · exact List.pairwise_map.mpr (holds.apart.imp fun apart same => apart (Or.inr same.symm))

/-- Declarations that carry the keys of their operations are all kept. -/
theorem declarations_eq_flatMap (holds : module.HasTaken renamed taken)
    (owned : ∀ compiled ∈ taken, ∀ declaration ∈ compiled.declarations.declarations,
      declaration.name.owner = .operation compiled.method.key) :
    module.declarations.declarations =
      taken.flatMap fun compiled => compiled.declarations.declarations := by
  rw [holds.declarations_eq]
  refine firsts_of_distinct ?_
  rw [List.map_flatMap, List.nodup_flatMap]
  refine ⟨fun compiled _ => compiled.declarations.distinct, ?_⟩
  refine holds.apart.imp_of_mem fun firstMem secondMem apart => ?_
  -- a name in both would have the keys of both
  refine List.disjoint_left.mpr fun name inFirst inSecond => apart (Or.inl ?_)
  obtain ⟨declaration, declared, rfl⟩ := List.mem_map.mp inFirst
  obtain ⟨other, otherDeclared, sameName⟩ := List.mem_map.mp inSecond
  have owner := owned _ firstMem declaration declared
  rw [← sameName, owned _ secondMem other otherDeclared] at owner
  exact NameOwner.operation.inj owner

theorem function?_of_mem_methods (holds : module.HasTaken renamed taken) {method : ClientMethod}
    (member : method ∈ module.methods) :
    module.table.function? method.key = some method.functionName := by
  rw [holds.methods_eq] at member
  obtain ⟨compiled, isTaken, rfl⟩ := List.mem_map.mp member
  refine NameTable.function?_eq_of_mem (holds.keys_eq ▸ holds.nodup.1) ?_
  rw [holds.table_eq]
  exact List.mem_map_of_mem (f := fun compiled : CompiledOperation =>
    (compiled.method.key, compiled.method.functionName)) isTaken

end HasTaken

/-- A binding never changes. -/
theorem function?_offerAll {key : Nat} {function : String}
    (bound : module.table.function? key = some function) (later : List CompiledOperation) :
    (module.offerAll later).table.function? key = some function := by
  induction later generalizing module with
  | nil => exact bound
  | cons compiled rest ih =>
      refine ih ?_
      cases absorbed : module.absorb? compiled with
      | none => rwa [offer, absorbed]
      | some extended =>
          obtain ⟨-, -, rfl⟩ := absorb?_eq_some_iff.mp absorbed
          rw [offer, absorbed]
          exact NameTable.function?_append bound _

/-- After any operations were offered to a new module: its methods are those of the taken
operations and have distinct keys and names, each key is bound to the name of its method for
good, an operation is refused, without a trace, exactly if its key or its name is bound, and
the declarations are the first of each name. -/
theorem offerAll_inStep (tag : String) (names : TagNames)
    (renamed : List (DeclarationName × String)) (offered : List CompiledOperation) :
    let module := (new tag names renamed).offerAll offered
    module.methods = (takenOf offered).map CompiledOperation.method ∧
      (module.methods.map ClientMethod.functionName).Nodup ∧
      (module.methods.map ClientMethod.key).Nodup ∧
      (∀ method ∈ module.methods, ∀ later,
        (module.offerAll later).table.function? method.key = some method.functionName) ∧
      (∀ key function, module.table.function? key = some function →
        ∀ later, (module.offerAll later).table.function? key = some function) ∧
      (∀ compiled, (module.absorb? compiled = none ↔
          (∃ function, module.table.function? compiled.method.key = some function) ∨
            ∃ key, module.table.function? key = some compiled.method.functionName) ∧
        (module.absorb? compiled = none → module.offer compiled = module)) ∧
      module.declarations.declarations = firsts Declaration.name
        ((takenOf offered).flatMap fun compiled => compiled.declarations.declarations) ∧
      ((∀ compiled ∈ offered, ∀ declaration ∈ compiled.declarations.declarations,
          declaration.name.owner = .operation compiled.method.key) →
        module.declarations.declarations =
          (takenOf offered).flatMap fun compiled => compiled.declarations.declarations) := by
  intro module
  have holds : module.HasTaken renamed (takenOf offered) :=
    (hasTaken_new tag names).offerAll offered
  have keysDistinct : (module.table.functions.map Prod.fst).Nodup := holds.keys_eq ▸ holds.nodup.1
  refine ⟨holds.methods_eq, ?names, ?keys,
    fun method member later => function?_offerAll (holds.function?_of_mem_methods member) later,
    fun _ _ bound later => function?_offerAll bound later, fun compiled => ⟨?refuses, ?noTrace⟩,
    holds.declarations_eq, fun owned => holds.declarations_eq_flatMap fun compiled isTaken =>
      owned compiled (mem_of_mem_takenOf isTaken)⟩
  case names =>
    rw [holds.methods_eq, List.map_map]
    exact holds.nodup.2
  case keys =>
    rw [holds.methods_eq, List.map_map]
    exact holds.nodup.1
  case refuses =>
    rw [absorb?_eq_none_iff, NameTable.mem_keys_iff, NameTable.mem_functionNames_iff keysDistinct]
  case noTrace =>
    intro refused
    rw [offer, refused, Option.getD_none]

/-- An operation with a query, whose interface carries the key of the operation. -/
def queryOperation (key : Nat) (functionName : String) : CompiledOperation where
  method :=
    { key := key
      functionName := functionName
      method := .get
      path := "/pets"
      pathArguments := []
      query := some (.named (.ofOperation .query key))
      body := none
      response := .any
      summary := none
      description := none
      deprecated := false }
  declarations := .register .empty ⟨.ofOperation .query key, .interface []⟩

/-- The second operation repeats a method name, the third one a key. -/
def clashingOffers : List CompiledOperation :=
  [queryOperation 0 "getPets", queryOperation 1 "getPets", queryOperation 0 "getPetsById",
    queryOperation 2 "getPetsById"]

theorem offerAll_inStep_clashing :
    (∀ compiled ∈ clashingOffers, ∀ declaration ∈ compiled.declarations.declarations,
        declaration.name.owner = .operation compiled.method.key) ∧
      ((new "pets" ⟨"pets"⟩ []).offerAll clashingOffers).declarations.declarations =
        [⟨.ofOperation .query 0, .interface []⟩, ⟨.ofOperation .query 2, .interface []⟩] := by
  have owned : ∀ compiled ∈ clashingOffers,
      ∀ declaration ∈ compiled.declarations.declarations,
        declaration.name.owner = .operation compiled.method.key := by decide
  refine ⟨owned, ?_⟩
  obtain ⟨-, -, -, -, -, -, -, kept⟩ := offerAll_inStep "pets" ⟨"pets"⟩ [] clashingOffers
  rw [kept owned]
  decide

end TagModule

end TypedClient
