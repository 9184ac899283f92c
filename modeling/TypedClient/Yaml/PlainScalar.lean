import TypedClient.Yaml.Gap

/-!
# Plain scalars

A plain scalar has no quotes. It ends at a colon that ends a word, at a comment,
at a mark of flow syntax inside a flow collection, and in block syntax at a line
that is not indented deeper than its parent.
-/

namespace TypedClient.Yaml.PlainScalar

/-- The marks that end a plain scalar inside a flow collection. -/
def flowMarks : List Char :=
  [',', '[', ']', '\x7b', '\x7d']

/-- The characters up to the next blank, break or end of the scalar. Inside a flow
collection a colon must not stand directly before a mark. -/
def word? (inFlow : Bool) : List Char → Option (List Char)
  | [] => some []
  | c :: rest =>
      if isBlankOrBreak c then
        some []
      else if inFlow && c == ':' && rest.head?.any (('?' :: flowMarks).contains ·) then
        none
      else if (c == ':' && endsWord rest) || (inFlow && flowMarks.contains c) then
        some []
      else
        (word? inFlow rest).map (c :: ·)

/-- A plain scalar, the place after it and after the gap that follows, and whether
that gap goes on to another line. -/
structure Scan where
  text : List Char
  place : Place
  broken : Bool

/-- Scans the words of a plain scalar after a gap. -/
def scanFrom (inFlow : Bool) (indent : Int) : (rounds : Nat) → Gap → Place → Option Scan
  | 0, gap, place => some ⟨[], place, gap.broken⟩
  | rounds + 1, gap, place =>
      if place.atDocumentMark || place.sees (· == '#') then
        some ⟨[], place, gap.broken⟩
      else do
        let word ← word? inFlow place.rest
        if word.isEmpty then
          return ⟨[], place, gap.broken⟩
        let text := gap.folded ++ word
        let ended := place.advance word.length
        let (gap, after) ← Gap.take indent ended.rest.length .none ended
        if !ended.sees isBlankOrBreak || (!inFlow && after.column < indent) then
          return ⟨text, after, gap.broken⟩
        let others ← scanFrom inFlow indent rounds gap after
        return { others with text := text ++ others.text }

/-- Scans a plain scalar whose lines are indented by the given number of columns. -/
def scan (inFlow : Bool) (indent : Int) (place : Place) : Option Scan :=
  scanFrom inFlow indent place.rest.length .none place

end TypedClient.Yaml.PlainScalar
