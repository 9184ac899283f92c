import TypedClient.Declaration.Name
import TypedClient.Keyed
import TypedClient.Numbering

/-!
# Keeping identifiers apart

Two schema-owned names can have the same default identifier, since characters
that an identifier cannot hold all become underscores. The names of the schemas
themselves claim their default first, then the nested names, each in order. A
later claimant gets the least number whose identifier is nobody's default and has
not been assigned.
-/

namespace TypedClient.Disambiguation

variable [Text.Conversions]

/-- A name with its default identifier. -/
structure Claim where
  name : DeclarationName
  identifier : String
  deriving DecidableEq, Repr

def Claim.ofName? (name : DeclarationName) : Option Claim :=
  name.defaultIdentifier?.map (Claim.mk name)

/-- The claims in the order in which they are settled. -/
def claimsOf (names : List DeclarationName) : List Claim :=
  let claims := names.filterMap Claim.ofName?
  (claims.filter fun claim => claim.name.isRoot) ++
    claims.filter fun claim => !claim.name.isRoot

/-- The identifiers handed out so far, and the names that got another one than
their default. -/
structure Assignment where
  taken : List String
  renamed : List (DeclarationName × String)

def numberedIdentifier (identifier : String) (number : Nat) : String :=
  identifier ++ "_" ++ toString number

/-- Settles one claim. -/
def Assignment.settle (reserved : List String) (assignment : Assignment) (claim : Claim) :
    Assignment :=
  if assignment.taken.contains claim.identifier then
    let number := freeNumber (numberedIdentifier claim.identifier) (reserved ++ assignment.taken)
    let identifier := numberedIdentifier claim.identifier number
    ⟨identifier :: assignment.taken,
      Keyed.put Prod.fst (claim.name, identifier) assignment.renamed⟩
  else
    ⟨claim.identifier :: assignment.taken, assignment.renamed⟩

/-- The names that do not get their default identifier, with the one they get. -/
def renamed (names : List DeclarationName) : List (DeclarationName × String) :=
  let claims := claimsOf names
  let reserved := claims.map Claim.identifier
  (claims.foldl (Assignment.settle reserved) ⟨[], []⟩).renamed

end TypedClient.Disambiguation
