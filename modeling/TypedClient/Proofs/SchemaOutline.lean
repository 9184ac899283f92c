import TypedClient.Declaration.Buffer
import TypedClient.Schema.Resolution
import Mathlib.Data.List.Nodup

/-!
# Outlines of schemas and of types

The outline of a schema is its type with every object shape written out in place,
while references keep the name of their component. A declared type has an outline
too, found by looking names up in the declarations. Since names are declared once,
a type has no more than one outline.
-/

namespace TypedClient

/-- A type with its object shapes written out. A member has a name, a mark of being
optional and an outline. -/
inductive Outline where
  | primitive (kind : PrimitiveKind)
  | any
  | array (item : Outline)
  | component (schema : String)
  | object (members : List (String × Bool × Outline))

namespace SchemaNode

/-- A reference stands for its component if there is one, and for `any` otherwise. -/
def referenceOutline (known : List String) (pointer : String) : Outline :=
  match schemaName? pointer with
  | some schema => if schema ∈ known then .component schema else .any
  | none => .any

mutual

/-- The outline of a schema, given the names of the components. -/
def outline (known : List String) : SchemaNode → Outline
  | primitive kind => .primitive kind
  | array item => .array (item.outline known)
  | object none _ => .any
  | object (some members) required => .object (membersOutline known required members)
  | reference pointer => referenceOutline known pointer
  | any => .any

/-- The outlines of the properties of an object, in their order. A property is optional
unless it is listed as required. -/
def membersOutline (known required : List String) :
    List (String × SchemaNode) → List (String × Bool × Outline)
  | [] => []
  | (key, node) :: rest =>
      (key, !required.contains key, node.outline known) :: membersOutline known required rest

end

end SchemaNode

/-- The body of a declaration has an outline in a list of declarations; a type has the
outline of an alias for it. The names of components stay as they are, and any other
name has to be declared. -/
inductive Unfolds (declarations : List Declaration) : DeclarationBody → Outline → Prop where
  | primitive (kind : PrimitiveKind) :
      Unfolds declarations (.typeAlias (.primitive kind)) (.primitive kind)
  | any : Unfolds declarations (.typeAlias .any) .any
  | array {item : TypeExpr} {outline : Outline}
      (unfolds : Unfolds declarations (.typeAlias item) outline) :
      Unfolds declarations (.typeAlias (.array item)) (.array outline)
  | component (schema : String) :
      Unfolds declarations (.typeAlias (.named (.ofSchema schema))) (.component schema)
  | declared {name : DeclarationName} {body : DeclarationBody} {outline : Outline}
      (notComponent : ∀ schema, name ≠ .ofSchema schema) (declared : ⟨name, body⟩ ∈ declarations)
      (unfolds : Unfolds declarations body outline) :
      Unfolds declarations (.typeAlias (.named name)) outline
  | noMembers : Unfolds declarations (.interface []) (.object [])
  | member {name : String} {type : TypeExpr} {isOptional : Bool} {outline : Outline}
      {properties : List Property} {members : List (String × Bool × Outline)}
      (unfolds : Unfolds declarations (.typeAlias type) outline)
      (others : Unfolds declarations (.interface properties) (.object members)) :
      Unfolds declarations (.interface (⟨name, type, isOptional⟩ :: properties))
        (.object ((name, isOptional, outline) :: members))

/-- Where names are distinct, a name has one body. -/
theorem body_unique {declarations : List Declaration}
    (distinct : (declarations.map Declaration.name).Nodup) {name : DeclarationName}
    {first second : DeclarationBody} (declaredFirst : ⟨name, first⟩ ∈ declarations)
    (declaredSecond : ⟨name, second⟩ ∈ declarations) : first = second := by
  have equal := List.inj_on_of_nodup_map distinct declaredFirst declaredSecond rfl
  exact congrArg Declaration.body equal

namespace Unfolds

variable {declarations : List Declaration} {body : DeclarationBody}

theorem unique (distinct : (declarations.map Declaration.name).Nodup) {first second : Outline}
    (left : Unfolds declarations body first) (right : Unfolds declarations body second) :
    first = second := by
  induction left generalizing second with
  | primitive kind | any | noMembers => cases right; rfl
  | array _ ih =>
      cases right with
      | array others => exact congrArg Outline.array (ih others)
  | component schema =>
      cases right with
      | component => rfl
      | declared notComponent _ _ => exact absurd rfl (notComponent schema)
  | declared notComponent declared _ ih =>
      cases right with
      | component schema => exact absurd rfl (notComponent schema)
      | declared _ declaredToo others =>
          cases body_unique distinct declared declaredToo
          exact ih others
  | member _ _ ih othersIH =>
      cases right with
      | member unfolds others =>
          cases ih unfolds
          cases othersIH others
          rfl

/-- An outline that is there is the only one. -/
theorem iff_eq (distinct : (declarations.map Declaration.name).Nodup) {outline : Outline}
    (unfolds : Unfolds declarations body outline) (other : Outline) :
    Unfolds declarations body other ↔ other = outline := by
  constructor
  · exact fun right => right.unique distinct unfolds
  · rintro rfl
    exact unfolds

theorem mono {larger : List Declaration} {outline : Outline} (subset : declarations ⊆ larger)
    (unfolds : Unfolds declarations body outline) : Unfolds larger body outline := by
  induction unfolds with
  | primitive kind => exact primitive kind
  | any => exact any
  | array _ ih => exact array ih
  | component schema => exact component schema
  | declared notComponent isDeclared _ ih => exact declared notComponent (subset isDeclared) ih
  | noMembers => exact noMembers
  | member _ _ ih othersIH => exact member ih othersIH

/-- A type that stands for another stands for it below array layers too. -/
theorem wrapArrays {type other : TypeExpr}
    (standsFor : ∀ outline, Unfolds declarations (.typeAlias type) outline →
      Unfolds declarations (.typeAlias other) outline)
    (layers : Nat) {outline : Outline}
    (unfolds : Unfolds declarations (.typeAlias (type.wrapArrays layers)) outline) :
    Unfolds declarations (.typeAlias (other.wrapArrays layers)) outline := by
  induction layers generalizing outline with
  | zero => exact standsFor outline unfolds
  | succ layers ih =>
      cases unfolds with
      | array item => exact array (ih item)

end Unfolds

end TypedClient
