import TypedClient.Declaration.Name
import TypedClient.Schema.Node

/-!
# Type expressions

The type of a value: a scalar, a declared shape, an untyped value, or an array of
one of these in any number of layers.
-/

namespace TypedClient

inductive TypeExpr where
  | primitive (kind : PrimitiveKind)
  | any
  | array (item : TypeExpr)
  | named (name : DeclarationName)
  deriving DecidableEq, Repr

namespace TypeExpr

/-- The type below the array layers. -/
def element : TypeExpr → TypeExpr
  | array item => item.element
  | other => other

/-- The number of array layers. -/
def depth : TypeExpr → Nat
  | array item => item.depth + 1
  | _ => 0

def wrapArrays (type : TypeExpr) : Nat → TypeExpr
  | 0 => type
  | layers + 1 => array (type.wrapArrays layers)

/-- The declared name in a type, if it has one. -/
def name? : TypeExpr → Option DeclarationName
  | named name => some name
  | array item => item.name?
  | _ => none

/-- The element and the layers make up the type. -/
theorem wrapArrays_element (type : TypeExpr) : type.element.wrapArrays type.depth = type := by
  induction type with
  | array item ih => exact congrArg array ih
  | _ => rfl

end TypeExpr

end TypedClient
