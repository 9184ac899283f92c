/-!
# A place in a YAML text

The characters still to be read, with the number of characters before them and
the line and the column reached. Lines and columns count from zero.
-/

namespace TypedClient.Yaml

/-- Blanks separate words on a line. -/
def isBlank (c : Char) : Bool :=
  c == ' ' || c == '\t'

/-- The characters that end a line. -/
def isBreak (c : Char) : Bool :=
  c == '\n' || c == '\r' || c == '\u0085' || c == '\u2028' || c == '\u2029'

def isBlankOrBreak (c : Char) : Bool :=
  isBlank c || isBreak c

/-- The characters of anchors, of tag handles and of directive names. -/
def isWordChar (c : Char) : Bool :=
  c.isAlphanum || c == '_' || c == '-'

/-- Whether a text ends here or goes on with a blank or a break. -/
def endsWord (text : List Char) : Bool :=
  text.head?.all isBlankOrBreak

structure Place where
  rest : List Char
  index : Nat
  line : Nat
  column : Nat

namespace Place

def start (text : List Char) : Place :=
  ⟨text, 0, 0, 0⟩

/-- The next character. -/
def next? (place : Place) : Option Char :=
  place.rest.head?

/-- Whether a character of a class comes next. -/
def sees (place : Place) (test : Char → Bool) : Bool :=
  place.next?.any test

/-- The place some characters further on the same line. -/
def advance (place : Place) (count : Nat) : Place :=
  ⟨place.rest.drop count, place.index + count, place.line, place.column + count⟩

/-- The place at the start of the line after a break of some characters. -/
def nextLine (place : Place) (count : Nat) : Place :=
  ⟨place.rest.drop count, place.index + count, place.line + 1, 0⟩

/-- The characters of a class that come next. -/
def run (place : Place) (test : Char → Bool) : List Char :=
  place.rest.takeWhile test

/-- The place after the characters of a class. -/
def skipWhile (place : Place) (test : Char → Bool) : Place :=
  place.advance (place.run test).length

/-- Takes a line break: a line or paragraph separator stands for itself, any other
break for a line feed. At any other place nothing is taken. -/
def takeBreak (place : Place) : List Char × Place :=
  match place.rest with
  | '\r' :: '\n' :: _ => (['\n'], place.nextLine 2)
  | '\u2028' :: _ => (['\u2028'], place.nextLine 1)
  | '\u2029' :: _ => (['\u2029'], place.nextLine 1)
  | c :: _ => if isBreak c then (['\n'], place.nextLine 1) else ([], place)
  | [] => ([], place)

/-- The place after the comment that starts here, if one does. -/
def skipComment (place : Place) : Place :=
  if place.sees (· == '#') then place.skipWhile fun c => !isBreak c else place

/-- The place after the rest of a line that may hold only a comment. -/
def skipLineEnd? (place : Place) : Option Place :=
  let ended := (place.skipWhile isBlank).skipComment
  if ended.next?.all isBreak then some ended.takeBreak.2 else none

/-- Whether a line starts here with three marks of a kind and ends the word. -/
def startsWithMarks (place : Place) (mark : Char) : Bool :=
  place.column == 0 && place.rest.take 3 == [mark, mark, mark] && endsWord (place.rest.drop 3)

/-- Whether the mark of a document's start or end stands here. -/
def atDocumentMark (place : Place) : Bool :=
  place.startsWithMarks '-' || place.startsWithMarks '.'

end Place

end TypedClient.Yaml
