import TypedClient.Yaml.Place

/-!
# Gaps between words

The blanks and breaks inside a scalar are folded: blanks on one line are kept, a
single line break becomes a space, and of several breaks all but the first are
kept.
-/

namespace TypedClient.Yaml

/-- A gap: its blanks if it stays on one line, and otherwise its first break and
the others. A gap can be broken by an escaped break, which is not kept. -/
structure Gap where
  blanks : List Char
  broken : Bool
  firstBreak : List Char
  laterBreaks : List Char

namespace Gap

def none : Gap :=
  ⟨[], false, [], []⟩

/-- The gap after an escaped line break. -/
def escaped : Gap :=
  ⟨[], true, [], []⟩

/-- What a gap contributes to a scalar. -/
def folded (gap : Gap) : List Char :=
  if !gap.broken then gap.blanks
  else if gap.firstBreak != ['\n'] then gap.firstBreak ++ gap.laterBreaks
  else if gap.laterBreaks.isEmpty then [' ']
  else gap.laterBreaks

/-- The gap with one more break. -/
def addBreak (gap : Gap) (text : List Char) : Gap :=
  if gap.broken then
    { gap with laterBreaks := gap.laterBreaks ++ text }
  else
    { gap with blanks := [], broken := true, firstBreak := text }

/-- Takes a gap off the text. A tab that indents a line before the given column is
refused. -/
def take (column : Int) : (rounds : Nat) → Gap → Place → Option (Gap × Place)
  | 0, gap, place => some (gap, place)
  | rounds + 1, gap, place =>
      match place.next? with
      | Option.none => some (gap, place)
      | some c =>
          if isBreak c then
            let (text, after) := place.takeBreak
            take column rounds (gap.addBreak text) after
          else if !isBlank c then
            some (gap, place)
          else if !gap.broken then
            take column rounds { gap with blanks := gap.blanks ++ [c] } (place.advance 1)
          else if c == '\t' && place.column < column then
            Option.none
          else
            take column rounds gap (place.advance 1)

end Gap

end TypedClient.Yaml
