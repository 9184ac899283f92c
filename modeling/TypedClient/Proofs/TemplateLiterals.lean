import TypedClient.Proofs.GeneratedIdentifiers

/-!
# Template literals

The URL of a request is a template literal if the path has placeholders. Reading it gives
the pieces of the path back: its literal text, and the argument of each placeholder. That
takes a path whose literal text has no dollar sign before an opening brace, since the two
open an interpolation, and they are not escaped.
-/

namespace TypedClient

namespace Path

open Text

/-- A part of what a template literal stands for. -/
inductive TemplatePart where
  | text (characters : List Char)
  | interpolation (identifier : List Char)
  deriving DecidableEq, Repr

/-- Puts a character before parts, into the text they start with if there is one. -/
def consText (c : Char) : List TemplatePart → List TemplatePart
  | .text characters :: others => .text (c :: characters) :: others
  | others => .text [c] :: others

/-- Reads a template literal after its opening delimiter. A backslash makes the next
character plain, a dollar sign and a brace open an interpolation, and the delimiter ends the
literal. The only expressions that are read are identifiers. -/
def readTemplate : List Char → Option (List TemplatePart)
  | [] => none
  | ['\x60'] => some []
  | '\x60' :: _ => none
  | '\\' :: c :: rest => (readTemplate rest).map (consText c)
  | '$' :: '\x7b' :: rest =>
      match found : cutAtChar? closingBrace rest with
      | none => none
      | some (name, after) =>
          have := length_lt_of_cutAtChar? found
          if Identifier.validChars name then
            (readTemplate after).map (.interpolation name :: ·)
          else
            none
  | c :: rest => (readTemplate rest).map (consText c)
termination_by text => text.length

/-- What an expression stands for that is a template literal. -/
def templateParts? (expression : String) : Option (List TemplatePart) :=
  match expression.toList with
  | '\x60' :: rest => readTemplate rest
  | _ => none

section Reading

variable {c : Char} {name text rest : List Char}

theorem readTemplate_delimiter : readTemplate [templateDelimiter] = some [] := by
  rw [templateDelimiter, readTemplate]

theorem readTemplate_escaped (c : Char) (rest : List Char) :
    readTemplate ('\\' :: c :: rest) = (readTemplate rest).map (consText c) := by
  rw [readTemplate]

theorem readTemplate_interpolation (valid : Identifier.validChars name = true)
    (rest : List Char) :
    readTemplate ('$' :: openingBrace :: (name ++ closingBrace :: rest)) =
      (readTemplate rest).map (.interpolation name :: ·) := by
  have absent : closingBrace ∉ name := fun member =>
    absurd (Identifier.isPart_of_mem valid member) (by decide)
  have cut := cutAtChar?_append_separator absent rest
  rw [openingBrace, readTemplate]
  split
  · rename_i failed
    rw [cut] at failed
    cases failed
  · rename_i found
    rw [cut] at found
    cases found
    exact if_pos valid

/-- An interpolation of anything but an identifier is not read. -/
theorem readTemplate_eq_none
    (noIdentifier : ∀ name after, cutAtChar? closingBrace rest = some (name, after) →
      Identifier.validChars name = false) :
    readTemplate ('$' :: openingBrace :: rest) = none := by
  rw [openingBrace, readTemplate]
  split
  · rfl
  · rename_i name after found
    rw [noIdentifier name after found]
    rfl

theorem readTemplate_plain (notDelimiter : c ≠ templateDelimiter) (notBackslash : c ≠ '\\')
    (notOpening : c = '$' → rest.head? ≠ some openingBrace) :
    readTemplate (c :: rest) = (readTemplate rest).map (consText c) := by
  rw [readTemplate.eq_def]
  split
  · rename_i equal
    cases equal
  · rename_i equal
    cases equal
    exact absurd rfl notDelimiter
  · rename_i equal
    cases equal
    exact absurd rfl notDelimiter
  · rename_i equal
    cases equal
    exact absurd rfl notBackslash
  · rename_i equal
    cases equal
    exact absurd rfl (notOpening rfl)
  · rename_i equal
    cases equal
    rfl

end Reading

section Pieces

variable {c : Char} {name text rest after : List Char} {parts : List Piece}

theorem pieces_placeholder (found : placeholderName? rest = some (name, after)) :
    pieces (openingBrace :: rest) = .placeholder name :: pieces after := by
  rw [pieces, beq_self_eq_true, if_pos rfl]
  split
  · rename_i read
    rw [found] at read
    cases read
    rfl
  · rename_i failed
    rw [found] at failed
    cases failed

theorem pieces_literal (notOpened : c = openingBrace → placeholderName? rest = none) :
    pieces (c :: rest) = consLiteral c (pieces rest) := by
  rw [pieces]
  split
  · rename_i opened
    split
    · rename_i read
      rw [notOpened (beq_iff_eq.mp opened)] at read
      cases read
    · rfl
  · rfl

/-- A text is empty, or it starts with a placeholder or with a literal character. -/
@[elab_as_elim]
theorem pieces_induction {motive : List Char → Prop} (empty : motive [])
    (placeholder : ∀ rest name after, placeholderName? rest = some (name, after) →
      motive after → motive (openingBrace :: rest))
    (literal : ∀ c rest, (c = openingBrace → placeholderName? rest = none) →
      motive rest → motive (c :: rest)) (text : List Char) : motive text := by
  induction text using pieces.induct with
  | case1 => exact empty
  | case2 c rest opened name after found _ ih =>
      exact beq_iff_eq.mp opened ▸ placeholder rest name after found ih
  | case3 c rest _ failed ih => exact literal c rest (fun _ => failed) ih
  | case4 c rest notOpening ih =>
      exact literal c rest (fun opened => absurd (beq_iff_eq.mpr opened) notOpening) ih

/-- A literal piece has a dollar sign before an opening brace. -/
def HasBareOpening (parts : List Piece) : Prop :=
  ∃ text, Piece.literal text ∈ parts ∧ ['$', openingBrace] <:+: text

/-- A text starts with a brace that opens no placeholder. -/
def StartsWithBareBrace (text : List Char) : Prop :=
  ∃ rest, text = openingBrace :: rest ∧ placeholderName? rest = none

theorem hasBareOpening_consLiteral_iff :
    HasBareOpening (consLiteral c parts) ↔
      (c = '$' ∧ ∃ text others, parts = .literal (openingBrace :: text) :: others) ∨
        HasBareOpening parts := by
  have single : ¬ ['$', openingBrace] <:+: [c] := fun isInfix => by
    simpa using isInfix.length_le
  rcases parts with _ | ⟨⟨text⟩ | ⟨name⟩, others⟩
  · simp [HasBareOpening, consLiteral, single]
  · have starts : ['$', openingBrace] <+: c :: text ↔
        c = '$' ∧ ∃ rest, text = openingBrace :: rest := by
      rw [List.cons_prefix_cons, eq_comm]
      exact and_congr_right fun _ => ⟨fun ⟨rest, same⟩ => ⟨rest, same.symm⟩,
        fun ⟨rest, same⟩ => ⟨rest, same.symm⟩⟩
    simp [HasBareOpening, consLiteral, List.infix_cons_iff, starts, or_assoc, or_and_right,
      exists_or]
  · simp [HasBareOpening, consLiteral, single]

theorem exists_pieces_eq_iff :
    (∃ literal others, pieces text = .literal (openingBrace :: literal) :: others) ↔
      StartsWithBareBrace text := by
  cases text using pieces_induction with
  | empty => simp [StartsWithBareBrace, pieces]
  | placeholder rest name after found _ =>
      simp [StartsWithBareBrace, pieces_placeholder found, found]
  | literal c rest notOpened _ =>
      have starts : (∃ literal others, consLiteral c (pieces rest) =
          .literal (openingBrace :: literal) :: others) ↔ c = openingBrace := by
        rcases pieces rest with _ | ⟨⟨text⟩ | ⟨name⟩, others⟩ <;> simp [consLiteral]
      rw [pieces_literal notOpened, starts]
      constructor
      · rintro rfl
        exact ⟨rest, rfl, notOpened rfl⟩
      · rintro ⟨_, same, -⟩
        exact (List.cons.inj same).1

end Pieces

section Writing

variable [Conversions] {c : Char} {name text rest after : List Char}

/-- What a piece stands for in a template literal. -/
def Piece.part : Piece → TemplatePart
  | .literal text => .text text
  | .placeholder name => .interpolation (Identifier.argumentNameChars name)

/-- The pieces of a path as they are written, with the closing delimiter. -/
def templateText (text : List Char) : List Char :=
  (pieces text).flatMap Piece.templateChars ++ [templateDelimiter]

theorem templateText_placeholder (found : placeholderName? rest = some (name, after)) :
    templateText (openingBrace :: rest) = '$' :: openingBrace ::
      (Identifier.argumentNameChars name ++ closingBrace :: templateText after) := by
  simp [templateText, pieces_placeholder found, Piece.templateChars]

theorem templateText_literal (notOpened : c = openingBrace → placeholderName? rest = none) :
    templateText (c :: rest) = escapeChars templateDelimiter [c] ++ templateText rest := by
  have written : (consLiteral c (pieces rest)).flatMap Piece.templateChars =
      escapeChars templateDelimiter [c] ++ (pieces rest).flatMap Piece.templateChars := by
    rcases pieces rest with _ | ⟨⟨text⟩ | ⟨name⟩, others⟩ <;>
      simp [consLiteral, Piece.templateChars, escapeChars]
  rw [templateText, pieces_literal notOpened, written, templateText, List.append_assoc]

theorem map_part_consLiteral (c : Char) (parts : List Piece) :
    (consLiteral c parts).map Piece.part = consText c (parts.map Piece.part) := by
  rcases parts with _ | ⟨⟨text⟩ | ⟨name⟩, others⟩ <;> rfl

theorem startsWithBareBrace_of_head? (starts : (templateText text).head? = some openingBrace) :
    StartsWithBareBrace text := by
  cases text using pieces_induction with
  | empty => simp [templateText, pieces, templateDelimiter, openingBrace] at starts
  | placeholder rest name after found _ =>
      rw [templateText_placeholder found, List.head?_cons] at starts
      cases starts
  | literal c rest notOpened _ =>
      rw [templateText_literal notOpened] at starts
      by_cases escaped : c = '\\' ∨ c = templateDelimiter
      · rw [escapeChars_escaped escaped, List.cons_append, List.head?_cons] at starts
        cases starts
      · rw [not_or] at escaped
        rw [escapeChars_plain escaped.1 escaped.2, List.cons_append, List.head?_cons] at starts
        obtain rfl := Option.some.inj starts
        exact ⟨rest, rfl, notOpened rfl⟩

/-- After a brace that opens no placeholder, another brace opens before one closes. -/
theorem openingBrace_mem_of_cutAtChar? {before : List Char}
    (noName : placeholderName? text = none)
    (cut : cutAtChar? closingBrace (templateText text) = some (before, after)) :
    openingBrace ∈ before := by
  induction text using pieces_induction generalizing before after with
  | empty => simp [templateText, pieces, cutAtChar?, templateDelimiter, closingBrace] at cut
  | placeholder rest name tail found _ =>
      have absent : closingBrace ∉ ['$', openingBrace] := by decide
      rw [templateText_placeholder found] at cut
      change cutAtChar? closingBrace (['$', openingBrace] ++ _) = _ at cut
      obtain ⟨inner, rfl, -⟩ := exists_of_cutAtChar?_append absent cut
      simp
  | literal c rest notOpened ih =>
      unfold placeholderName? at noName
      split at noName
      · cases noName
      · rename_i notClosing
        have absent : closingBrace ∉ escapeChars templateDelimiter [c] := by
          intro member
          rcases eq_of_mem_escapeChars_singleton member with isBackslash | isClosing
          · exact absurd isBackslash (by decide)
          · exact notClosing (beq_iff_eq.mpr isClosing.symm)
        rw [templateText_literal notOpened] at cut
        obtain ⟨inner, rfl, cutRest⟩ := exists_of_cutAtChar?_append absent cut
        split at noName
        · rename_i opening
          obtain rfl := beq_iff_eq.mp opening
          exact List.mem_append_left _ (mem_escapeChars_singleton _ _)
        · exact List.mem_append_right _ (ih (Option.map_eq_none_iff.mp noName) cutRest)

theorem readTemplate_bareOpening (starts : StartsWithBareBrace text) :
    readTemplate ('$' :: templateText text) = none := by
  obtain ⟨rest, rfl, noName⟩ := starts
  have notEscaped : openingBrace ≠ '\\' ∧ openingBrace ≠ templateDelimiter := by decide
  rw [templateText_literal fun _ => noName, escapeChars_plain notEscaped.1 notEscaped.2]
  refine readTemplate_eq_none fun before after cut => ?_
  have member := openingBrace_mem_of_cutAtChar? noName cut
  rw [Bool.eq_false_iff]
  exact fun valid => absurd (Identifier.isPart_of_mem valid member) (by decide)

/-- A literal character is read as itself, unless it opens an interpolation. -/
theorem readTemplate_literal (notOpened : c = openingBrace → placeholderName? rest = none)
    (noInterpolation : c = '$' → ¬ StartsWithBareBrace rest) :
    readTemplate (templateText (c :: rest)) =
      (readTemplate (templateText rest)).map (consText c) := by
  rw [templateText_literal notOpened]
  by_cases escaped : c = '\\' ∨ c = templateDelimiter
  · rw [escapeChars_escaped escaped]
    exact readTemplate_escaped c _
  · rw [not_or] at escaped
    rw [escapeChars_plain escaped.1 escaped.2]
    exact readTemplate_plain escaped.2 escaped.1 fun dollar starts =>
      noInterpolation dollar (startsWithBareBrace_of_head? starts)

/-- A path is read back from what is written for it, or nothing is if a literal piece opens
an interpolation. -/
theorem readTemplate_templateText (text : List Char) :
    (¬ HasBareOpening (pieces text) →
      readTemplate (templateText text) = some ((pieces text).map Piece.part)) ∧
    (HasBareOpening (pieces text) → readTemplate (templateText text) = none) := by
  induction text using pieces_induction with
  | empty =>
      have noLiteral : ¬ HasBareOpening (pieces []) := by simp [HasBareOpening, pieces]
      exact ⟨fun _ => by simpa [templateText, pieces] using readTemplate_delimiter,
        fun opens => absurd opens noLiteral⟩
  | placeholder rest name after found ih =>
      have same : HasBareOpening (pieces (openingBrace :: rest)) ↔
          HasBareOpening (pieces after) := by
        simp [HasBareOpening, pieces_placeholder found]
      have valid := (Identifier.argumentNameChars_spec name).1
      rw [same, templateText_placeholder found, readTemplate_interpolation valid,
        pieces_placeholder found]
      exact ⟨fun closed => by rw [ih.1 closed]; rfl, fun opens => by rw [ih.2 opens]; rfl⟩
  | literal c rest notOpened ih =>
      rw [pieces_literal notOpened, hasBareOpening_consLiteral_iff, exists_pieces_eq_iff,
        map_part_consLiteral]
      by_cases opening : c = '$' ∧ StartsWithBareBrace rest
      · refine ⟨fun closed => absurd (Or.inl opening) closed, fun _ => ?_⟩
        obtain ⟨rfl, starts⟩ := opening
        rw [templateText_literal notOpened]
        exact readTemplate_bareOpening starts
      · rw [readTemplate_literal notOpened fun dollar starts => opening ⟨dollar, starts⟩]
        refine ⟨fun closed => ?_, fun opens => ?_⟩
        · rw [ih.1 fun opens => closed (Or.inr opens)]
          rfl
        · rw [ih.2 (opens.resolve_left opening)]
          rfl

theorem templateParts?_urlExpression {path : String} (templated : placeholders path ≠ []) :
    templateParts? (urlExpression path) = readTemplate (templateText path.toList) := by
  have isTemplate : (pieces path.toList).any (fun piece => piece.placeholder?.isSome) = true := by
    by_contra noPlaceholder
    refine templated ?_
    have noNames : (pieces path.toList).filterMap Piece.placeholder? = [] := by
      simpa [List.filterMap_eq_nil_iff] using noPlaceholder
    rw [placeholders, noNames]
    rfl
  rw [templateParts?, urlExpression, if_pos isTemplate, String.toList_ofList]
  rfl

/-- The URL of a path with placeholders stands for the pieces of the path exactly if no
literal piece has a dollar sign before an opening brace; otherwise it cannot be read. -/
theorem urlExpression_denotes_iff (path : String) (templated : placeholders path ≠ []) :
    (templateParts? (urlExpression path) = some ((pieces path.toList).map Piece.part) ↔
      ¬ HasBareOpening (pieces path.toList)) ∧
    (templateParts? (urlExpression path) = none ↔ HasBareOpening (pieces path.toList)) := by
  obtain ⟨reads, fails⟩ := readTemplate_templateText path.toList
  rw [templateParts?_urlExpression templated]
  by_cases opens : HasBareOpening (pieces path.toList)
  · simp [fails opens, opens]
  · simp [reads opens, opens]

end Writing

section Samples

attribute [local instance] Conversions.unchanged

/-- A path with all that is escaped in it, and with a dollar sign before a placeholder. -/
def escapedSample : String := "/a\\\x60b/$\x7bid\x7d"

theorem pieces_escapedSample :
    pieces escapedSample.toList = [.literal "/a\\\x60b/$".toList, .placeholder "id".toList] := by
  cbv

theorem urlExpression_denotes_iff_escapedSample :
    placeholders escapedSample ≠ [] ∧ templateParts? (urlExpression escapedSample) =
      some [.text "/a\\\x60b/$".toList, .interpolation "id".toList] := by
  have templated : placeholders escapedSample ≠ [] := by
    rw [placeholders, pieces_escapedSample]
    decide
  have closed : ¬ HasBareOpening (pieces escapedSample.toList) := by
    rw [pieces_escapedSample]
    rintro ⟨text, member, opens⟩
    obtain rfl : text = "/a\\\x60b/$".toList := by simpa using member
    exact absurd opens (by decide)
  have denotes := (urlExpression_denotes_iff escapedSample templated).1.mpr closed
  rw [pieces_escapedSample] at denotes
  exact ⟨templated, denotes⟩

/-- A path with a dollar sign and a brace before a placeholder. -/
def dollarSample : String := "/prices/$\x7b\x7bid\x7d"

theorem not_denotes_dollarSample :
    ¬ ∀ path : String, placeholders path ≠ [] →
      templateParts? (urlExpression path) = some ((pieces path.toList).map Piece.part) := by
  intro denotes
  have piecesEq : pieces dollarSample.toList =
      [.literal "/prices/$\x7b".toList, .placeholder "id".toList] := by
    cbv
  have templated : placeholders dollarSample ≠ [] := by
    rw [placeholders, piecesEq]
    decide
  have opens : HasBareOpening (pieces dollarSample.toList) := by
    rw [piecesEq]
    exact ⟨_, List.mem_cons_self, by decide⟩
  have unreadable := (readTemplate_templateText dollarSample.toList).2 opens
  rw [← templateParts?_urlExpression templated, denotes dollarSample templated] at unreadable
  cases unreadable

end Samples

end Path

end TypedClient
