import TypedClient.Proofs.TemplateLiterals

/-!
# The pieces of a path

A path falls apart into pieces in exactly one way: literal text that encloses no name, no
such text next to another, and the names that stand in braces between. So its placeholders are
what a scan of the path for names in braces finds.
-/

namespace TypedClient

namespace Path

open Text

def isBrace (c : Char) : Bool :=
  c == openingBrace || c == closingBrace

/-- A text without braces. -/
def IsBraceFree (text : List Char) : Prop :=
  ∀ c ∈ text, isBrace c = false

/-- A name stands in braces somewhere in a text. -/
def Encloses (text name : List Char) : Prop :=
  IsBraceFree name ∧ openingBrace :: (name ++ [closingBrace]) <:+: text

section Names

variable {c : Char} {text name other rest after front : List Char}

theorem isBraceFree_cons : IsBraceFree (c :: text) ↔ isBrace c = false ∧ IsBraceFree text :=
  List.forall_mem_cons

theorem placeholderName?_cons (noBrace : isBrace c = false) (rest : List Char) :
    placeholderName? (c :: rest) =
      (placeholderName? rest).map fun found => (c :: found.1, found.2) := by
  rw [isBrace, Bool.or_eq_false_iff] at noBrace
  rw [placeholderName?, noBrace.1, noBrace.2]
  rfl

theorem placeholderName?_closed (braceFree : IsBraceFree name) (after : List Char) :
    placeholderName? (name ++ closingBrace :: after) = some (name, after) := by
  induction name with
  | nil => rfl
  | cons c name ih =>
      obtain ⟨noBrace, restFree⟩ := isBraceFree_cons.mp braceFree
      rw [List.cons_append, placeholderName?_cons noBrace, ih restFree]
      rfl

/-- A name is found if nothing but the name stands before the first brace, and this brace is a
closing one. -/
theorem placeholderName?_eq_some_iff :
    placeholderName? text = some (name, after) ↔
      IsBraceFree name ∧ text = name ++ closingBrace :: after := by
  constructor
  · intro found
    induction text generalizing name with
    | nil => cases found
    | cons c rest ih =>
        by_cases brace : isBrace c = true
        · rw [isBrace, Bool.or_eq_true, beq_iff_eq, beq_iff_eq] at brace
          rcases brace with rfl | rfl
          · cases found
          · cases found
            exact ⟨fun _ member => absurd member List.not_mem_nil, rfl⟩
        · rw [Bool.not_eq_true] at brace
          rw [placeholderName?_cons brace, Option.map_eq_some_iff] at found
          obtain ⟨⟨inner, tail⟩, read, equal⟩ := found
          cases equal
          obtain ⟨innerFree, rfl⟩ := ih read
          exact ⟨isBraceFree_cons.mpr ⟨brace, innerFree⟩, rfl⟩
  · rintro ⟨braceFree, rfl⟩
    exact placeholderName?_closed braceFree after

theorem encloses_cons_iff :
    Encloses (c :: rest) name ↔
      c = openingBrace ∧ (∃ after, placeholderName? rest = some (name, after)) ∨
        Encloses rest name := by
  have starts : openingBrace :: (name ++ [closingBrace]) <+: c :: rest ↔
      c = openingBrace ∧ ∃ after, rest = name ++ closingBrace :: after := by
    rw [List.cons_prefix_cons, eq_comm]
    refine and_congr_right fun _ => exists_congr fun after => ?_
    simp [eq_comm]
  simp only [Encloses, List.infix_cons_iff, starts, placeholderName?_eq_some_iff, exists_and_left]
  tauto

end Names

/-- A piece as it stands in a path. -/
def Piece.sourceChars : Piece → List Char
  | .literal text => text
  | .placeholder name => openingBrace :: (name ++ [closingBrace])

/-- A literal has text and encloses no name, and a name has no braces. -/
def Piece.IsProper : Piece → Prop
  | .literal text => text ≠ [] ∧ ∀ name, ¬ Encloses text name
  | .placeholder name => IsBraceFree name

def Piece.Apart (first second : Piece) : Prop :=
  first.placeholder? ≠ none ∨ second.placeholder? ≠ none

/-- Pieces that make up a text, no literal next to another one. -/
structure IsTokenization (text : List Char) (parts : List Piece) : Prop where
  source_eq : parts.flatMap Piece.sourceChars = text
  proper : ∀ piece ∈ parts, piece.IsProper
  apart : parts.IsChain Piece.Apart

section Tokenizations

variable {c : Char} {name text rest after : List Char} {piece : Piece} {parts : List Piece}

theorem IsTokenization.placeholder (braceFree : IsBraceFree name)
    (isTokenization : IsTokenization after parts) :
    IsTokenization (openingBrace :: (name ++ closingBrace :: after))
      (.placeholder name :: parts) where
  source_eq := by simp [Piece.sourceChars, isTokenization.source_eq]
  proper := List.forall_mem_cons.mpr ⟨braceFree, isTokenization.proper⟩
  apart := by
    refine isTokenization.apart.cons ?_
    exact fun _ _ => Or.inl (Option.some_ne_none _)

theorem not_encloses_nil : ¬ Encloses [] name :=
  fun encloses => absurd (List.infix_nil.mp encloses.2) (List.cons_ne_nil _ _)

/-- A character that opens no placeholder encloses no name with the text after it. -/
theorem not_encloses_cons (notOpened : c = openingBrace → placeholderName? rest = none)
    (isPrefix : text <+: rest) (closed : ¬ Encloses text name) : ¬ Encloses (c :: text) name := by
  intro encloses
  rcases encloses_cons_iff.mp encloses with ⟨opening, after, found⟩ | inText
  · obtain ⟨others, rfl⟩ := isPrefix
    obtain ⟨braceFree, rfl⟩ := placeholderName?_eq_some_iff.mp found
    have foundInRest := placeholderName?_closed braceFree (after ++ others)
    rw [List.append_assoc, List.cons_append, foundInRest] at notOpened
    exact Option.some_ne_none _ (notOpened opening)
  · exact closed inText

theorem IsTokenization.consLiteral (notOpened : c = openingBrace → placeholderName? rest = none)
    (isTokenization : IsTokenization rest parts) :
    IsTokenization (c :: rest) (consLiteral c parts) := by
  obtain ⟨source, proper, apart⟩ := isTokenization
  have oneProper : (Piece.literal [c]).IsProper :=
    ⟨List.cons_ne_nil _ _, fun _ => not_encloses_cons notOpened List.nil_prefix not_encloses_nil⟩
  rcases parts with _ | ⟨⟨text⟩ | ⟨name⟩, others⟩
  · exact ⟨congrArg (c :: ·) source, by simpa [Path.consLiteral] using oneProper, .singleton _⟩
  · obtain ⟨textProper, othersProper⟩ := List.forall_mem_cons.mp proper
    have isPrefix : text <+: rest := ⟨_, source⟩
    refine ⟨congrArg (c :: ·) source, List.forall_mem_cons.mpr ⟨⟨List.cons_ne_nil _ _,
      fun name => not_encloses_cons notOpened isPrefix (textProper.2 name)⟩, othersProper⟩, ?_⟩
    rw [List.isChain_cons] at apart
    exact List.isChain_cons.mpr apart
  · refine ⟨congrArg (c :: ·) source, List.forall_mem_cons.mpr ⟨oneProper, proper⟩, ?_⟩
    exact .cons_cons (Or.inr (Option.some_ne_none _)) apart

end Tokenizations

/-- The name that an opening and a closing brace enclose at the start of a text. -/
def nameAfter? (opening text : List Char) : Option (List Char) :=
  (dropBeginning? opening text).bind fun rest => (placeholderName? rest).map Prod.fst

/-- The names that are enclosed anywhere in a text, from left to right. -/
def namesAfter (opening text : List Char) : List (List Char) :=
  text.tails.filterMap (nameAfter? opening)

section Scans

variable {c : Char} {opening name text rest after front : List Char} {parts : List Piece}

end Scans

end Path

end TypedClient
