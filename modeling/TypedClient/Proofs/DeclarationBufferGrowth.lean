import TypedClient.Declaration.Buffer
import Mathlib.Data.List.Nodup

/-!
# How declaration buffers grow

Registering adds a declaration at the end or does nothing, so a buffer only ever
grows. The names that one root owns start with its keys; names of different
owners, families or branches never meet.
-/

namespace TypedClient

namespace DeclarationName

/-- A name owned by a component schema. -/
def IsSchemaOwned (name : DeclarationName) : Prop :=
  ∃ schema, name.owner = .schema schema

/-- The name of a root or of a shape nested below it. -/
def IsBelow (name root : DeclarationName) : Prop :=
  name.family = root.family ∧ name.owner = root.owner ∧ root.keys <+: name.keys

theorem IsBelow.refl (name : DeclarationName) : name.IsBelow name :=
  ⟨rfl, rfl, List.prefix_refl _⟩

theorem IsBelow.trans {name middle root : DeclarationName} (first : name.IsBelow middle)
    (second : middle.IsBelow root) : name.IsBelow root :=
  ⟨first.1.trans second.1, first.2.1.trans second.2.1, second.2.2.trans first.2.2⟩

theorem child_isBelow (name : DeclarationName) (key : String) : (name.child key).IsBelow name :=
  ⟨rfl, rfl, List.prefix_append _ _⟩

/-- A shape below a property is not the shape that has the property. -/
theorem IsBelow.ne_of_child {name root : DeclarationName} {key : String}
    (below : name.IsBelow (root.child key)) : name ≠ root := by
  rintro rfl
  have length := below.2.2.length_le
  simp only [child, List.length_append, List.length_singleton] at length
  omega

/-- The branches of two properties of one shape are apart. -/
theorem IsBelow.key_unique {name root : DeclarationName} {first second : String}
    (belowFirst : name.IsBelow (root.child first))
    (belowSecond : name.IsBelow (root.child second)) : first = second := by
  have keys : root.keys ++ [first] = root.keys ++ [second] := by
    have lengths : (root.keys ++ [first]).length = (root.keys ++ [second]).length := by simp
    have comparable := List.prefix_of_prefix_length_le belowFirst.2.2 belowSecond.2.2
      (Nat.le_of_eq lengths)
    exact comparable.eq_of_length lengths
  simpa using keys

end DeclarationName

namespace TypeExpr

theorem name?_element (type : TypeExpr) : type.element.name? = type.name? := by
  induction type with
  | array item ih => exact ih
  | _ => rfl

theorem name?_wrapArrays (type : TypeExpr) (layers : Nat) :
    (type.wrapArrays layers).name? = type.name? := by
  induction layers with
  | zero => rfl
  | succ layers ih => exact ih

end TypeExpr

theorem mem_namesIn {types : List TypeExpr} {name : DeclarationName} :
    name ∈ namesIn types ↔ ∃ type ∈ types, type.name? = some name := by
  simp [namesIn]

theorem mem_namesIn_append {types others : List TypeExpr} {name : DeclarationName} :
    name ∈ namesIn (types ++ others) ↔ name ∈ namesIn types ∨ name ∈ namesIn others := by
  simp [namesIn]

theorem mem_namesIn_named {name other : DeclarationName} :
    other ∈ namesIn [.named name] ↔ other = name := by
  simp [namesIn, TypeExpr.name?]

/-- Array layers do not matter for the names in a type. -/
theorem namesIn_congr {type other : TypeExpr} (sameName : type.name? = other.name?) :
    namesIn [type] = namesIn [other] := by
  rw [namesIn, namesIn, List.filterMap_cons, List.filterMap_cons, sameName]

namespace DeclarationBuffer

variable {buffer : DeclarationBuffer} {declaration : Declaration} {name : DeclarationName}

theorem mem_names : name ∈ buffer.names ↔
    ∃ declaration ∈ buffer.declarations, declaration.name = name :=
  List.mem_map

theorem name_mem_names (declared : declaration ∈ buffer.declarations) :
    declaration.name ∈ buffer.names :=
  List.mem_map_of_mem declared

/-- The names after declarations were added at the end. -/
theorem mem_names_of_extended {larger : DeclarationBuffer} {added : List Declaration}
    (extended : larger.declarations = buffer.declarations ++ added) :
    name ∈ larger.names ↔
      name ∈ buffer.names ∨ ∃ declaration ∈ added, declaration.name = name := by
  simp only [mem_names, extended, List.mem_append, or_and_right, exists_or]

theorem register_of_mem (known : declaration.name ∈ buffer.names) :
    buffer.register declaration = buffer :=
  dif_pos known

theorem declarations_register_of_not_mem (fresh : declaration.name ∉ buffer.names) :
    (buffer.register declaration).declarations = buffer.declarations ++ [declaration] :=
  congrArg declarations (dif_neg fresh)

theorem eq_or_mem_of_mem_register {other : Declaration}
    (member : other ∈ (buffer.register declaration).declarations) :
    other = declaration ∨ other ∈ buffer.declarations := by
  by_cases known : declaration.name ∈ buffer.names
  · rw [register_of_mem known] at member
    exact Or.inr member
  · rw [declarations_register_of_not_mem known, List.mem_append, List.mem_singleton] at member
    exact member.symm

theorem mem_names_register :
    name ∈ (buffer.register declaration).names ↔
      name ∈ buffer.names ∨ name = declaration.name := by
  by_cases known : declaration.name ∈ buffer.names
  · rw [register_of_mem known]
    constructor
    · exact Or.inl
    · rintro (member | rfl)
      · exact member
      · exact known
  · simp [names, declarations_register_of_not_mem known]

theorem mem_names_registerAll {declarations : List Declaration} :
    name ∈ (buffer.registerAll declarations).names ↔
      name ∈ buffer.names ∨ name ∈ declarations.map Declaration.name := by
  induction declarations generalizing buffer with
  | nil => simp [registerAll]
  | cons first rest ih =>
      have step : buffer.registerAll (first :: rest) =
          (buffer.register first).registerAll rest := rfl
      rw [step, ih, mem_names_register, List.map_cons, List.mem_cons, or_assoc]

/-- Declarations with distinct names that the buffer lacks are all added. -/
theorem declarations_registerAll_of_disjoint {declarations : List Declaration}
    (distinct : (declarations.map Declaration.name).Nodup)
    (fresh : ∀ declaration ∈ declarations, declaration.name ∉ buffer.names) :
    (buffer.registerAll declarations).declarations = buffer.declarations ++ declarations := by
  induction declarations generalizing buffer with
  | nil => simp [registerAll]
  | cons first rest ih =>
      rw [List.map_cons, List.nodup_cons] at distinct
      have firstFresh := fresh first List.mem_cons_self
      have restFresh : ∀ declaration ∈ rest,
          declaration.name ∉ (buffer.register first).names := by
        intro declaration member declared
        rcases mem_names_register.mp declared with old | equal
        · exact fresh declaration (List.mem_cons_of_mem _ member) old
        · exact distinct.1 (equal ▸ List.mem_map_of_mem member)
      have added := ih distinct.2 restFresh
      rw [declarations_register_of_not_mem firstFresh, List.append_assoc] at added
      exact added

end DeclarationBuffer

end TypedClient
