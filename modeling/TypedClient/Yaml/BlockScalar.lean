import TypedClient.Yaml.Place

/-!
# Block scalars

A block scalar is the indented text below its header. A literal one keeps its
lines; a folded one joins lines by spaces, except around empty lines and lines
that are indented further. The header can fix the indentation and say what
becomes of the breaks at the end.
-/

namespace TypedClient.Yaml.BlockScalar

/-- What becomes of the breaks at the end: none is kept, one, or all. -/
inductive Chomping where
  | strip
  | clip
  | keep
  deriving DecidableEq

/-- The header of a block scalar; an indentation of zero is not given. -/
structure Header where
  chomping : Chomping
  indentation : Nat

def chomping? : Char → Option Chomping
  | '+' => some .keep
  | '-' => some .strip
  | _ => none

/-- Reads the marks of a header, in either order. -/
def header? (place : Place) : Option (Header × Place) :=
  match place.next? with
  | none => some (⟨.clip, 0⟩, place)
  | some first =>
      match chomping? first with
      | some chomping =>
          match (place.advance 1).next? with
          | some second =>
              if second == '0' then none
              else if second.isDigit then
                some (⟨chomping, second.toNat - 0x30⟩, place.advance 2)
              else some (⟨chomping, 0⟩, place.advance 1)
          | none => some (⟨chomping, 0⟩, place.advance 1)
      | none =>
          if first == '0' then none
          else if first.isDigit then
            match (place.advance 1).next?.bind chomping? with
            | some chomping => some (⟨chomping, first.toNat - 0x30⟩, place.advance 2)
            | none => some (⟨.clip, first.toNat - 0x30⟩, place.advance 1)
          else some (⟨.clip, 0⟩, place)

/-- The place after the indentation of a line. An indentation of zero is open, and
all spaces belong to it. -/
def skipIndentation (indentation : Nat) (place : Place) : Place :=
  let spaces := place.run (· == ' ')
  if indentation == 0 then
    place.advance spaces.length
  else
    place.advance (min spaces.length (indentation - place.column))

/-- Takes the empty lines that come next: their breaks, the place after them and
the widest indentation among them. A tab must not indent a line. -/
def emptyLines? (indentation : Nat) (widest : Nat) :
    (rounds : Nat) → Place → Option (List Char × Place × Nat)
  | 0, place => some ([], place, widest)
  | rounds + 1, place =>
      let indented := skipIndentation indentation place
      let widest := max widest indented.column
      if (indentation == 0 || indented.column < indentation) && indented.sees (· == '\t') then
        none
      else if !indented.sees isBreak then
        some ([], indented, widest)
      else do
        let (text, after) := indented.takeBreak
        let (others, ended, widest) ← emptyLines? indentation widest rounds after
        return (text ++ others, ended, widest)

/-- The text of a block scalar and the breaks that are still open at its end. -/
structure Lines where
  text : List Char
  lastBreak : List Char
  emptyBreaks : List Char
  place : Place

/-- Takes the lines of a block scalar. `lastBreak` is the break before this line,
`emptyBreaks` are those of the empty lines in between, and `wasIndented` tells
whether the line before started with a blank. -/
def lines? (literal : Bool) (indentation : Nat) :
    (rounds : Nat) → (lastBreak emptyBreaks : List Char) → (wasIndented : Bool) → Place →
      Option Lines
  | 0, lastBreak, emptyBreaks, _, place => some ⟨[], lastBreak, emptyBreaks, place⟩
  | rounds + 1, lastBreak, emptyBreaks, wasIndented, place =>
      if place.column != indentation || place.rest.isEmpty then
        some ⟨[], lastBreak, emptyBreaks, place⟩
      else do
        let isIndented := place.sees isBlank
        let joint :=
          if !literal && lastBreak == ['\n'] && !wasIndented && !isIndented then
            if emptyBreaks.isEmpty then [' '] else []
          else
            lastBreak
        let line := place.run fun c => !isBreak c
        let (text, after) := (place.advance line.length).takeBreak
        let (breaks, next, _) ← emptyLines? indentation 0 (after.rest.length + 1) after
        let others ← lines? literal indentation rounds text breaks isIndented next
        return { others with text := joint ++ emptyBreaks ++ line ++ others.text }

/-- Scans a block scalar at its indicator, for a parent at the given indentation. -/
def scan (literal : Bool) (parent : Int) (place : Place) : Option (List Char × Place) := do
  let (header, marked) ← header? (place.advance 1)
  let body ← marked.skipLineEnd?
  let given :=
    if header.indentation == 0 then 0
    else (max parent 0).toNat + header.indentation
  let rounds := body.rest.length + 1
  let (breaks, first, widest) ← emptyLines? given 0 rounds body
  let indentation := if given == 0 then max (max widest (parent + 1).toNat) 1 else given
  let lines ← lines? literal indentation rounds [] breaks false first
  let ending :=
    match header.chomping with
    | .strip => []
    | .clip => lines.lastBreak
    | .keep => lines.lastBreak ++ lines.emptyBreaks
  return (lines.text ++ ending, lines.place)

end TypedClient.Yaml.BlockScalar
