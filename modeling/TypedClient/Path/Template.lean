import TypedClient.HttpMethod
import TypedClient.Identifier
import TypedClient.Text.Split

/-!
# Path templates

A path template is literal text with placeholders in braces. A brace that does
not close a placeholder belongs to the literal text, so every text is a template.
From a template come the method name, the argument list and the URL expression of
a client method.
-/

namespace TypedClient.Path

open Text

/-- A piece of a template: literal text or the name between two braces. -/
inductive Piece where
  | literal (text : List Char)
  | placeholder (name : List Char)
  deriving DecidableEq, Repr

def openingBrace : Char := '\x7b'
def closingBrace : Char := '\x7d'

/-- The name up to the closing brace and the text after it, for a text that
follows an opening brace. Another opening brace ends the attempt. -/
def placeholderName? : List Char → Option (List Char × List Char)
  | [] => none
  | c :: rest =>
      if c == closingBrace then
        some ([], rest)
      else if c == openingBrace then
        none
      else
        (placeholderName? rest).map fun (name, after) => (c :: name, after)

theorem length_after_placeholderName {text name after : List Char}
    (found : placeholderName? text = some (name, after)) : after.length < text.length := by
  induction text generalizing name after with
  | nil => simp [placeholderName?] at found
  | cons c rest ih =>
    unfold placeholderName? at found
    split at found
    · obtain ⟨rfl, rfl⟩ : [] = name ∧ rest = after := by simpa using found
      simp
    · split at found
      · simp at found
      · obtain ⟨⟨inner, tail⟩, read, equal⟩ := Option.map_eq_some_iff.1 found
        obtain ⟨-, rfl⟩ : c :: inner = name ∧ tail = after := by simpa using equal
        exact Nat.lt_succ_of_lt (ih read)

/-- Puts a character before pieces, into the literal they start with if there is
one. -/
def consLiteral (c : Char) : List Piece → List Piece
  | .literal text :: others => .literal (c :: text) :: others
  | others => .literal [c] :: others

/-- The pieces of a template, from left to right. -/
def pieces : List Char → List Piece
  | [] => []
  | c :: rest =>
      if c == openingBrace then
        match found : placeholderName? rest with
        | some (name, after) =>
            have := length_after_placeholderName found
            .placeholder name :: pieces after
        | none => consLiteral c (pieces rest)
      else
        consLiteral c (pieces rest)
termination_by text => text.length

def Piece.placeholder? : Piece → Option (List Char)
  | .literal _ => none
  | .placeholder name => some name

/-- The placeholder names of a template in order of first appearance. -/
def placeholders (path : String) : List String :=
  (((pieces path.toList).filterMap Piece.placeholder?).map String.ofList).eraseDups

/-- The parts of a path between slashes, empty ones left out. -/
def segments (path : List Char) : List (List Char) :=
  (splitAtChar '/' path).filter fun segment => !segment.isEmpty

/-- The segments that contribute to a method name: a leading `api` is dropped. -/
def namingSegments (path : List Char) : List (List Char) :=
  match segments path with
  | first :: others => if first == "api".toList then others else first :: others
  | [] => []

variable [Text.Conversions]

/-- A text as capitalized words; a plain word keeps its spelling. -/
def wordChars (text : List Char) : List Char :=
  if text.all Char.isAlphanum then
    match text with
    | [] => []
    | first :: rest => first.toUpper :: rest
  else
    Identifier.pascalWords text

/-- What a piece adds to a method name. -/
def Piece.nameChars : Piece → List Char
  | .literal text => wordChars text
  | .placeholder name => 'B' :: 'y' :: wordChars name

/-- What a segment adds to a method name. -/
def segmentNameChars (segment : List Char) : List Char :=
  (pieces segment).flatMap Piece.nameChars

/-- The name of the client method for an HTTP method and a path:
`GET /api/users/` followed by a placeholder `id` gives `getUsersById`. -/
def functionName (method : HttpMethod) (path : String) : String :=
  String.ofList (method.name.toList ++ (namingSegments path.toList).flatMap segmentNameChars)

def templateDelimiter : Char := '\x60'

/-- A piece as it is written inside a template literal. -/
def Piece.templateChars : Piece → List Char
  | .literal text => escapeChars templateDelimiter text
  | .placeholder name =>
      '$' :: openingBrace :: (Identifier.argumentNameChars name ++ [closingBrace])

/-- The URL expression of a request: a plain string without placeholders, and a
template literal that interpolates the arguments otherwise. -/
def urlExpression (path : String) : String :=
  let parts := pieces path.toList
  if parts.any fun piece => piece.placeholder?.isSome then
    String.ofList
      (templateDelimiter :: (parts.flatMap Piece.templateChars ++ [templateDelimiter]))
  else
    singleQuoted path

end TypedClient.Path
