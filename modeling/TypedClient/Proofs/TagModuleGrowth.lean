import TypedClient.Tag.Grouping
import TypedClient.Proofs.DtoPoolClosure
import TypedClient.Proofs.OperationCompilationGrowth
import TypedClient.Proofs.RenderingTotality

/-!
# What tag modules hold

A module takes an operation only with a key and a method name that are new to it.
Since the declarations of an operation carry its key, absorbing one adds all of
them, and a module declares exactly what the signatures of its methods need.
-/

namespace TypedClient

namespace NameTable

/-- A binding adds one method name and keeps the others. -/
theorem bind?_eq_some_iff {table bound : NameTable} {key : Nat} {function : String} :
    table.bind? key function = some bound ↔
      key ∉ table.functions.map Prod.fst ∧ function ∉ table.functions.map Prod.snd ∧
        bound = { table with functions := table.functions ++ [(key, function)] } := by
  unfold bind?
  split
  · rename_i taken
    simp only [Bool.or_eq_true, List.contains_iff_mem] at taken
    simp only [reduceCtorEq, false_iff, not_and]
    intro keyFresh functionFresh
    exact absurd taken (by rintro (left | right) <;> contradiction)
  · rename_i free
    simp only [Bool.or_eq_true, List.contains_iff_mem, not_or] at free
    simp [free.1, free.2, eq_comm]

theorem bind?_eq_none_iff {table : NameTable} {key : Nat} {function : String} :
    table.bind? key function = none ↔
      key ∈ table.functions.map Prod.fst ∨ function ∈ table.functions.map Prod.snd := by
  rw [← List.contains_iff_mem, ← List.contains_iff_mem, ← Bool.or_eq_true, bind?, ite_eq_left_iff]
  simp only [reduceCtorEq, imp_false, not_not]

theorem mem_functions_of_function? {table : NameTable} {key : Nat} {function : String}
    (bound : table.function? key = some function) : (key, function) ∈ table.functions := by
  obtain ⟨_, _, functionsEq, -⟩ := List.lookup_eq_some_iff.mp bound
  rw [functionsEq]
  exact List.mem_append_right _ List.mem_cons_self

theorem exists_function?_of_mem {table : NameTable} {key : Nat}
    (bound : key ∈ table.functions.map Prod.fst) :
    ∃ function, table.function? key = some function := by
  obtain ⟨pair, member, isKey⟩ := List.mem_map.mp bound
  cases found : table.function? key with
  | some function => exact ⟨function, rfl⟩
  | none =>
      have missing := List.lookup_eq_none_iff.mp found pair member
      rw [isKey] at missing
      exact absurd missing (by simp)

theorem canRender_of_mem_functions {table : NameTable} {name : DeclarationName} {key : Nat}
    (owner : name.owner = .operation key) (bound : key ∈ table.functions.map Prod.fst) :
    table.CanRender name := by
  obtain ⟨function, found⟩ := exists_function?_of_mem bound
  exact canRender_of_function owner found

end NameTable

namespace TagModule

/-- The names in the signatures of the methods. -/
def signatureNames (module : TagModule) : List DeclarationName :=
  module.methods.flatMap ClientMethod.references

/-- What a module keeps while it absorbs operations. -/
structure IsSound (known : List String) (module : TagModule) : Prop where
  closed : module.declarations.IsClosed known
  signaturesCovered : ∀ name ∈ module.signatureNames, module.declarations.Covers known name
  bound : ∀ name ∈ module.declarations.names, ∃ key, name.owner = .operation key ∧
    key ∈ module.table.functions.map Prod.fst
  needed : ∀ name ∈ module.declarations.names,
    Needed module.declarations.declarations module.signatureNames name

theorem isSound_new (known : List String) (tag : String) (names : TagNames)
    (renamed : List (DeclarationName × String)) : IsSound known (new tag names renamed) where
  closed := fun _ member => absurd member List.not_mem_nil
  signaturesCovered := fun _ member => absurd member List.not_mem_nil
  bound := fun _ member => absurd member List.not_mem_nil
  needed := fun _ member => absurd member List.not_mem_nil

theorem absorb?_eq_some_iff {module extended : TagModule} {compiled : CompiledOperation} :
    module.absorb? compiled = some extended ↔
      compiled.method.key ∉ module.table.functions.map Prod.fst ∧
      compiled.method.functionName ∉ module.table.functions.map Prod.snd ∧
      extended = { module with
        methods := module.methods ++ [compiled.method]
        declarations := module.declarations.registerAll compiled.declarations.declarations
        table := { module.table with functions := module.table.functions ++
          [(compiled.method.key, compiled.method.functionName)] } } := by
  simp only [absorb?, Option.map_eq_some_iff, NameTable.bind?_eq_some_iff]
  constructor
  · rintro ⟨table, ⟨keyFresh, functionFresh, rfl⟩, rfl⟩
    exact ⟨keyFresh, functionFresh, rfl⟩
  · rintro ⟨keyFresh, functionFresh, rfl⟩
    exact ⟨_, ⟨keyFresh, functionFresh, rfl⟩, rfl⟩

/-- A module refuses an operation exactly if it has the key or the method name. -/
theorem absorb?_eq_none_iff {module : TagModule} {compiled : CompiledOperation} :
    module.absorb? compiled = none ↔
      compiled.method.key ∈ module.table.functions.map Prod.fst ∨
        compiled.method.functionName ∈ module.table.functions.map Prod.snd := by
  rw [absorb?, Option.map_eq_none_iff, NameTable.bind?_eq_none_iff]

/-- The declarations and the methods of a sound module can be written, with whatever
declarations of the pool. -/
theorem IsSound.canRender {known : List String} {module : TagModule}
    (sound : module.IsSound known) {name : DeclarationName}
    (covered : module.declarations.Covers known name) : module.table.CanRender name := by
  rcases covered with declared | ⟨schema, -, rfl⟩
  · obtain ⟨key, owner, keyBound⟩ := sound.bound name declared
    exact NameTable.canRender_of_mem_functions owner keyBound
  · exact NameTable.canRender_of_schema rfl

variable [Text.Conversions]

/-- Absorbing an operation adds its declarations, none of which can be there
already. -/
theorem IsSound.declarations_registerAll {known : List String} {module : TagModule}
    (sound : module.IsSound known) (operation : Operation)
    (fresh : operation.key ∉ module.table.functions.map Prod.fst) :
    (module.declarations.registerAll
        (operation.compile known).1.declarations.declarations).declarations =
      module.declarations.declarations ++
        (operation.compile known).1.declarations.declarations := by
  apply DeclarationBuffer.declarations_registerAll_of_disjoint
  · exact (operation.compile known).1.declarations.distinct
  · intro declaration member declared
    obtain ⟨key, owner, keyBound⟩ := sound.bound declaration.name declared
    have ownKey := (Operation.compile_growth known operation).ofKind declaration member
    rw [ownKey] at owner
    exact fresh (NameOwner.operation.inj owner ▸ keyBound)

theorem IsSound.absorb {known : List String} {module extended : TagModule}
    (sound : module.IsSound known) (operation : Operation)
    (absorbed : module.absorb? (operation.compile known).1 = some extended) :
    extended.IsSound known := by
  obtain ⟨keyFresh, -, rfl⟩ := absorb?_eq_some_iff.mp absorbed
  have growth := Operation.compile_growth known operation
  have joined := sound.declarations_registerAll operation keyFresh
  have covers : ∀ name, module.declarations.Covers known name ∨
      (operation.compile known).1.declarations.Covers known name →
        (module.declarations.registerAll
          (operation.compile known).1.declarations.declarations).Covers known name := by
    rintro name ((old | component) | (new | component))
    · exact Or.inl (DeclarationBuffer.mem_names_registerAll.mpr (Or.inl old))
    · exact Or.inr component
    · exact Or.inl (DeclarationBuffer.mem_names_registerAll.mpr (Or.inr new))
    · exact Or.inr component
  have signatures : ∀ name,
      name ∈ (module.methods ++ [(operation.compile known).1.method]).flatMap
        ClientMethod.references ↔
          name ∈ module.signatureNames ∨ name ∈ (operation.compile known).1.method.references := by
    simp [signatureNames]
  constructor
  · intro declaration member name refers
    rw [joined, List.mem_append] at member
    rcases member with old | new
    · exact covers name (Or.inl (sound.closed declaration old name refers))
    · exact covers name (Or.inr (growth.addedCovered declaration new name refers))
  · intro name member
    rcases (signatures name).mp member with old | new
    · exact covers name (Or.inl (sound.signaturesCovered name old))
    · exact covers name (Or.inr (growth.typesCovered name new))
  · intro name member
    rw [List.map_append, List.map_cons, List.map_nil]
    rcases DeclarationBuffer.mem_names_registerAll.mp member with old | new
    · obtain ⟨key, owner, keyBound⟩ := sound.bound name old
      exact ⟨key, owner, List.mem_append_left _ keyBound⟩
    · obtain ⟨declaration, declared, rfl⟩ := List.mem_map.mp new
      exact ⟨operation.key, growth.ofKind declaration declared,
        List.mem_append_right _ (List.mem_singleton_self _)⟩
  · intro name member
    rw [joined]
    rcases DeclarationBuffer.mem_names_registerAll.mp member with old | new
    · exact (sound.needed name old).mono (List.subset_append_left _ _)
        fun root rootMem => (signatures root).mpr (Or.inl rootMem)
    · obtain ⟨declaration, declared, rfl⟩ := List.mem_map.mp new
      exact (growth.needed declaration declared).mono (List.subset_append_right _ _)
        fun root rootMem => (signatures root).mpr (Or.inr rootMem)

end TagModule

namespace Grouping

section Invariant

variable [Text.Conversions] {property : TagModule → Prop} {known : List String}
  {renamed : List (DeclarationName × String)}

theorem forall_modules_opened
    (new : ∀ claims tag, property (.new tag (namesFor claims tag).1 renamed))
    {grouping : Grouping} (holds : ∀ module ∈ grouping.modules, property module) (tag : String) :
    property (grouping.opened renamed tag).1 ∧
      ∀ module ∈ (grouping.opened renamed tag).2.modules, property module := by
  unfold opened
  cases found : grouping.module? tag with
  | some module => exact ⟨holds module (List.mem_of_find?_eq_some found), holds⟩
  | none =>
      refine ⟨new _ _, ?_⟩
      intro module member
      rcases List.mem_append.mp member with old | added
      · exact holds module old
      · rw [List.mem_singleton.mp added]
        exact new _ _

theorem forall_modules_place
    (new : ∀ claims tag, property (.new tag (namesFor claims tag).1 renamed))
    {compiled : CompiledOperation}
    (absorb : ∀ module extended, property module → module.absorb? compiled = some extended →
      property extended)
    {grouping : Grouping} (holds : ∀ module ∈ grouping.modules, property module)
    (label tag : String) :
    ∀ module ∈ (place renamed label compiled grouping tag).modules, property module := by
  obtain ⟨opened, others⟩ := forall_modules_opened new holds tag
  simp only [place]
  split
  · rename_i extended absorbed
    intro module member
    rcases Keyed.mem_put member with rfl | old
    · exact absorb _ _ opened absorbed
    · exact others module old
  · exact others

/-- A property that holds of new modules and that absorbing preserves holds of all
modules of a grouping. -/
theorem forall_modules_ofOperations {defaultTag : String} {operations : List Operation}
    (new : ∀ claims tag, property (.new tag (namesFor claims tag).1 renamed))
    (absorb : ∀ operation ∈ operations, ∀ module extended, property module →
      module.absorb? (operation.compile known).1 = some extended → property extended) :
    ∀ module ∈ (ofOperations known defaultTag renamed operations).modules, property module := by
  refine List.foldlRecOn (motive := fun grouping : Grouping =>
    ∀ module ∈ grouping.modules, property module) operations _ ?_ ?_
  · exact fun _ member => absurd member List.not_mem_nil
  · intro grouping holds operation operationMem
    refine List.foldlRecOn (motive := fun grouping : Grouping =>
      ∀ module ∈ grouping.modules, property module) _ _ holds ?_
    intro inner innerHolds tag _
    exact forall_modules_place new (absorb operation operationMem) innerHolds operation.label tag

end Invariant

theorem isSound_of_mem_modules [Text.Conversions] {known : List String} {defaultTag : String}
    {renamed : List (DeclarationName × String)} {operations : List Operation}
    {module : TagModule}
    (member : module ∈ (ofOperations known defaultTag renamed operations).modules) :
    module.IsSound known :=
  forall_modules_ofOperations (fun _ tag => TagModule.isSound_new known tag _ renamed)
    (fun operation _ _ _ sound absorbed => sound.absorb operation absorbed) module member

end Grouping

end TypedClient
