import TypedClient.Proofs.UrlInterpolations
import TypedClient.Render.Declaration

/-!
# Quoted literals

A property name that is no identifier, and a path without placeholders, are written as literals
in single quotes. Backslashes and quotes are escaped in them and line terminators are not. So
reading a literal gives the text back exactly if the text has no line terminator; otherwise the
literal does not stand on one line. Different property names have different keys in any case.
-/

namespace TypedClient

namespace Text

/-- The characters that end a line of source text. -/
def isLineTerminator (c : Char) : Bool :=
  c == '\n' || c == '\r' || c == '\u2028' || c == '\u2029'

def hasLineTerminator (text : String) : Bool :=
  text.toList.any isLineTerminator

/-- What a character stands for after a backslash. A line terminator there would continue the
literal on another line. Escapes by the code of a character are not read; none is written. -/
def escapeMeaning? (c : Char) : Option Char :=
  if c == 'b' then some '\x08'
  else if c == 't' then some '\t'
  else if c == 'n' then some '\n'
  else if c == 'v' then some '\x0b'
  else if c == 'f' then some '\x0c'
  else if c == 'r' then some '\r'
  else if c.isDigit || c == 'x' || c == 'u' || isLineTerminator c then none
  else some c

/-- Reads a literal on one line after its opening quote. -/
def readQuoted : List Char → Option (List Char)
  | [] => none
  | ['\''] => some []
  | '\'' :: _ => none
  | '\\' :: c :: rest =>
      (escapeMeaning? c).bind fun meant => (readQuoted rest).map (meant :: ·)
  | c :: rest => if isLineTerminator c then none else (readQuoted rest).map (c :: ·)

/-- The text that an expression stands for that is a single-quoted literal on one line. -/
def literalText? (expression : String) : Option String :=
  match expression.toList with
  | '\'' :: rest => (readQuoted rest).map String.ofList
  | _ => none

section Reading

variable {c : Char} {text rest : List Char}

theorem readQuoted_escaped (escaped : c = '\\' ∨ c = '\'') (rest : List Char) :
    readQuoted ('\\' :: c :: rest) = (readQuoted rest).map (c :: ·) := by
  rcases escaped with rfl | rfl <;> rfl

theorem readQuoted_plain (notBackslash : c ≠ '\\') (notQuote : c ≠ '\'') (rest : List Char) :
    readQuoted (c :: rest) =
      if isLineTerminator c then none else (readQuoted rest).map (c :: ·) := by
  rw [readQuoted]
  · exact fun same _ => notQuote same
  · exact fun same => notQuote same
  · exact fun _ _ same => absurd same notBackslash

/-- A literal is read back unless a line terminator is in it. -/
theorem readQuoted_escapeChars (text : List Char) :
    readQuoted (escapeChars '\'' text ++ ['\'']) =
      if text.any isLineTerminator then none else some text := by
  induction text with
  | nil => rfl
  | cons c text ih =>
      rw [escapeChars_cons, List.append_assoc, List.any_cons]
      by_cases escaped : c = '\\' ∨ c = '\''
      · have noTerminator : isLineTerminator c = false := by
          rcases escaped with rfl | rfl <;> rfl
        rw [escapeChars_escaped escaped, List.cons_append, List.singleton_append,
          readQuoted_escaped escaped, ih, noTerminator, Bool.false_or]
        split <;> rfl
      · rw [not_or] at escaped
        rw [escapeChars_plain escaped.1 escaped.2, List.singleton_append,
          readQuoted_plain escaped.1 escaped.2, ih]
        cases isLineTerminator c with
        | true => rfl
        | false =>
            rw [Bool.false_or, if_neg Bool.false_ne_true]
            split <;> rfl

theorem literalText?_singleQuoted (text : String) :
    literalText? (singleQuoted text) = if hasLineTerminator text then none else some text := by
  have read : literalText? (singleQuoted text) =
      (readQuoted (escapeChars '\'' text.toList ++ ['\''])).map String.ofList := by
    rw [literalText?, singleQuoted, String.toList_ofList]
    rfl
  rw [read, readQuoted_escapeChars, hasLineTerminator]
  split
  · rfl
  · rw [Option.map_some, String.ofList_toList]

/-- Line terminators are written as they are. -/
theorem hasLineTerminator_singleQuoted (text : String) :
    hasLineTerminator (singleQuoted text) = hasLineTerminator text := by
  have noQuote : isLineTerminator '\'' = false := rfl
  have body : (escapeChars '\'' text.toList).any isLineTerminator =
      text.toList.any isLineTerminator := by
    rw [escapeChars, List.any_flatMap]
    refine congrArg _ (funext fun c => ?_)
    split
    · exact Bool.or_false _
    · exact Bool.or_false _
  rw [hasLineTerminator, singleQuoted, String.toList_ofList, List.any_cons, List.any_append,
    body, List.any_cons, noQuote]
  exact Bool.or_false _

end Reading

section Apart

variable {delimiter c next : Char} {text other : List Char}

theorem escapeChars_ne_nil (delimiter c : Char) (text : List Char) :
    escapeChars delimiter (c :: text) ≠ [] := by
  rw [escapeChars_cons]
  exact List.append_ne_nil_of_left_ne_nil
    (List.ne_nil_of_mem (mem_escapeChars_singleton c delimiter)) _

theorem escapeChars_cons_inj
    (same : escapeChars delimiter (c :: text) = escapeChars delimiter (next :: other)) :
    c = next ∧ escapeChars delimiter text = escapeChars delimiter other := by
  rw [escapeChars_cons, escapeChars_cons delimiter next] at same
  by_cases escaped : c = '\\' ∨ c = delimiter <;>
    by_cases nextEscaped : next = '\\' ∨ next = delimiter
  · rw [escapeChars_escaped escaped, escapeChars_escaped nextEscaped] at same
    simpa using same
  · -- a backslash that is written for the one would be the other itself
    rw [not_or] at nextEscaped
    rw [escapeChars_escaped escaped, escapeChars_plain nextEscaped.1 nextEscaped.2] at same
    exact absurd (List.cons.inj same).1.symm nextEscaped.1
  · rw [not_or] at escaped
    rw [escapeChars_plain escaped.1 escaped.2, escapeChars_escaped nextEscaped] at same
    exact absurd (List.cons.inj same).1 escaped.1
  · rw [not_or] at escaped nextEscaped
    rw [escapeChars_plain escaped.1 escaped.2,
      escapeChars_plain nextEscaped.1 nextEscaped.2] at same
    simpa using same

theorem escapeChars_injective (delimiter : Char) : Function.Injective (escapeChars delimiter) := by
  intro text other same
  induction text generalizing other with
  | nil =>
      cases other with
      | nil => rfl
      | cons next other => exact absurd same.symm (escapeChars_ne_nil delimiter next other)
  | cons c text ih =>
      cases other with
      | nil => exact absurd same (escapeChars_ne_nil delimiter c text)
      | cons next other =>
          obtain ⟨rfl, rest⟩ := escapeChars_cons_inj same
          rw [ih rest]

theorem singleQuoted_injective : Function.Injective singleQuoted := by
  intro text other same
  have bodies := List.append_cancel_right (List.cons.inj (String.ofList_injective same)).2
  exact String.toList_injective (escapeChars_injective _ bodies)

end Apart

/-- What an expression that is written for a text has to do with it: the expression stands for
the text, unless a line terminator in the text breaks the line. -/
structure DenotesUnlessBroken (read? : String → Option String) (expression text : String) :
    Prop where
  denotes_iff : read? expression = some text ↔ hasLineTerminator text = false
  broken : hasLineTerminator text = true →
    read? expression = none ∧ hasLineTerminator expression = true

theorem denotesUnlessBroken {read? : String → Option String} {expression text : String}
    (reads : read? expression = if hasLineTerminator text then none else some text)
    (keeps : hasLineTerminator expression = hasLineTerminator text) :
    DenotesUnlessBroken read? expression text := by
  refine ⟨?_, fun breaks => ?_⟩
  · rw [reads]
    cases hasLineTerminator text <;> simp
  · rw [reads, keeps, breaks]
    exact ⟨rfl, rfl⟩

end Text

namespace Identifier

open Text

/-- The name that a property key denotes: an identifier denotes itself, and a literal what it
stands for. -/
def keyName? (key : String) : Option String :=
  if isValid key then some key else literalText? key

theorem not_isValid_singleQuoted (text : String) : ¬ isValid (singleQuoted text) = true := by
  rw [isValid, singleQuoted, String.toList_ofList]
  exact Bool.false_ne_true

theorem hasLineTerminator_of_isValid {name : String} (valid : isValid name = true) :
    hasLineTerminator name = false := by
  rw [hasLineTerminator, List.any_eq_false]
  intro c member isTerminator
  have part := isPart_of_mem valid member
  simp only [isLineTerminator, Bool.or_eq_true, beq_iff_eq] at isTerminator
  rcases isTerminator with ((rfl | rfl) | rfl) | rfl <;> exact absurd part (by decide)

theorem propertyKey_denotes (name : String) :
    DenotesUnlessBroken keyName? (propertyKey name) name := by
  by_cases valid : isValid name = true
  · rw [propertyKey, if_pos valid]
    refine denotesUnlessBroken ?_ rfl
    rw [keyName?, if_pos valid, hasLineTerminator_of_isValid valid]
    rfl
  · rw [propertyKey, if_neg valid]
    refine denotesUnlessBroken ?_ (hasLineTerminator_singleQuoted name)
    rw [keyName?, if_neg (not_isValid_singleQuoted name), literalText?_singleQuoted]

theorem propertyKey_injective : Function.Injective propertyKey := by
  intro name other same
  by_cases valid : isValid name = true <;> by_cases otherValid : isValid other = true
  · rwa [propertyKey, propertyKey, if_pos valid, if_pos otherValid] at same
  · rw [propertyKey, propertyKey, if_pos valid, if_neg otherValid] at same
    exact absurd (same ▸ valid) (not_isValid_singleQuoted other)
  · rw [propertyKey, propertyKey, if_neg valid, if_pos otherValid] at same
    exact absurd (same ▸ otherValid) (not_isValid_singleQuoted name)
  · rw [propertyKey, propertyKey, if_neg valid, if_neg otherValid] at same
    exact singleQuoted_injective same

end Identifier

namespace Path

open Text

theorem urlExpression_denotes [Conversions] {path : String} (plain : placeholders path = []) :
    DenotesUnlessBroken literalText? (urlExpression path) path := by
  have noNames : (pieces path.toList).filterMap Piece.placeholder? = [] := by
    rw [List.eq_nil_iff_forall_not_mem]
    intro name member
    have isPlaceholder : String.ofList name ∈ placeholders path :=
      List.mem_eraseDups.mpr (List.mem_map_of_mem member)
    rw [plain] at isPlaceholder
    cases isPlaceholder
  rw [urlExpression_eq, if_pos noNames]
  exact denotesUnlessBroken (literalText?_singleQuoted path)
    (hasLineTerminator_singleQuoted path)

end Path

/-- Property keys and the URLs of paths without placeholders denote what they were written for,
unless a line terminator in it breaks the line; and no two names have the same key. -/
theorem quotedTexts_denote_iff [Text.Conversions] :
    (∀ name, Text.DenotesUnlessBroken Identifier.keyName? (Identifier.propertyKey name) name) ∧
    (∀ path, Path.placeholders path = [] →
      Text.DenotesUnlessBroken Text.literalText? (Path.urlExpression path) path) ∧
    Function.Injective Identifier.propertyKey :=
  ⟨Identifier.propertyKey_denotes, fun _ => Path.urlExpression_denotes,
    Identifier.propertyKey_injective⟩

section Sample

attribute [local instance] Text.Conversions.unchanged

/-- A path with a quote, a backslash and a brace that opens no placeholder. -/
theorem quotedTexts_denote_iff_quoteSample :
    Path.placeholders "/it's\\\x7ba" = [] ∧
      Text.literalText? (Path.urlExpression "/it's\\\x7ba") = some "/it's\\\x7ba" := by
  have plain : Path.placeholders "/it's\\\x7ba" = [] := by cbv
  have denotes := quotedTexts_denote_iff.2.1 "/it's\\\x7ba" plain
  exact ⟨plain, denotes.denotes_iff.mpr (by decide)⟩

end Sample

theorem not_denotes_lineFeedSample :
    ¬ ∀ name, Identifier.keyName? (Identifier.propertyKey name) = some name := by
  intro denotes
  have unreadable : Identifier.keyName? (Identifier.propertyKey "a\nb") = none := by decide
  rw [denotes "a\nb"] at unreadable
  cases unreadable

end TypedClient
