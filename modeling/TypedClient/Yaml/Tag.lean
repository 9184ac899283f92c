import TypedClient.Yaml.QuotedScalar

/-!
# Tags, anchors and directives

A tag is a suffix after a handle; the handles other than the two standard ones
are declared by directives before the document.
-/

namespace TypedClient.Yaml

/-- A tag as it is written. A verbatim tag has an empty handle. -/
structure TagText where
  handle : List Char
  suffix : List Char
  deriving DecidableEq, Repr

namespace TagText

/-- The characters of a tag beside those of words. -/
def uriMarks : List Char :=
  ";/?:@&=+$.%!~*'()".toList

/-- The further characters of a verbatim tag and of a declared beginning. -/
def verbatimMarks : List Char :=
  [',', '[', ']']

def isUriChar (verbatim : Bool) (c : Char) : Bool :=
  isWordChar c || uriMarks.contains c || (verbatim && verbatimMarks.contains c)

/-- The bytes of a run of percent escapes. -/
def escapedBytes : List Char → Option (List UInt8 × List Char)
  | '%' :: rest =>
      match rest with
      | first :: second :: others => do
          let byte ← QuotedScalar.hexNumber? [first, second]
          let (bytes, ended) ← escapedBytes others
          return (UInt8.ofNat byte :: bytes, ended)
      | _ => none
  | text => some ([], text)

/-- The characters that are written by bytes, if the bytes are valid. -/
def decodeBytes? (bytes : List UInt8) : Option (List Char) :=
  (String.fromUTF8? ⟨bytes.toArray⟩).map String.toList

/-- Undoes the escapes in the text of a tag. -/
def unescape? : (rounds : Nat) → List Char → Option (List Char)
  | 0, text => some text
  | _ + 1, [] => some []
  | rounds + 1, '%' :: rest => do
      let (bytes, others) ← escapedBytes ('%' :: rest)
      return (← decodeBytes? bytes) ++ (← unescape? rounds others)
  | rounds + 1, c :: rest => (unescape? rounds rest).map (c :: ·)

/-- Takes the characters of a tag off the text. -/
def takeUri? (verbatim : Bool) (place : Place) : Option (List Char × Place) := do
  let run := place.run (isUriChar verbatim)
  return (← unescape? run.length run, place.advance run.length)

/-- Takes a handle off the text: an exclamation mark, word characters, and the
closing mark if it is there. -/
def takeHandle? (place : Place) : Option (List Char × Place) :=
  if !place.sees (· == '!') then
    none
  else
    let word := (place.advance 1).run isWordChar
    let named := place.advance (word.length + 1)
    if named.sees (· == '!') then
      some ('!' :: (word ++ ['!']), named.advance 1)
    else
      some ('!' :: word, named)

/-- Takes a tag in angle brackets, which is used as it is. -/
def takeVerbatim? (place : Place) : Option (TagText × Place) := do
  let (suffix, after) ← takeUri? true (place.advance 2)
  if suffix.isEmpty || !after.sees (· == '>') then
    none
  else
    return (⟨[], suffix⟩, after.advance 1)

/-- Takes a tag with a handle. Without a closing mark the handle is a single mark
and the word belongs to the suffix; the mark alone is a tag of its own. -/
def takeShort? (place : Place) : Option (TagText × Place) := do
  let (handle, named) ← takeHandle? place
  let (suffix, after) ← takeUri? false named
  if handle.length > 1 && handle.getLast? == some '!' then
    if suffix.isEmpty then none else return (⟨handle, suffix⟩, after)
  else if handle.length == 1 && suffix.isEmpty then
    return (⟨[], ['!']⟩, after)
  else
    return (⟨['!'], handle.drop 1 ++ suffix⟩, after)

/-- Scans a tag. A blank or a break must follow, or a comma in a flow collection. -/
def scan (inFlow : Bool) (place : Place) : Option (TagText × Place) := do
  let (tag, after) ←
    if (place.advance 1).sees (· == '<') then takeVerbatim? place else takeShort? place
  if endsWord after.rest || (inFlow && after.sees (· == ',')) then
    return (tag, after)
  else
    none

end TagText

/-- The marks that may follow an anchor or an alias directly. -/
def anchorEnds : List Char :=
  ['?', ':', ',', ']', '\x7d', '%', '@', '\x60']

/-- Scans the name of an anchor or an alias after its indicator. -/
def scanAnchor (place : Place) : Option (List Char × Place) :=
  let name := (place.advance 1).run isWordChar
  let after := place.advance (name.length + 1)
  if name.isEmpty || !(endsWord after.rest || after.sees (anchorEnds.contains ·)) then
    none
  else
    some (name, after)

/-- What a directive says: a version of the language, or the beginning that a tag
handle stands for. -/
inductive Directive where
  | version (major minor : Nat)
  | tag (handle beginning : List Char)
  deriving DecidableEq, Repr

namespace Directive

def maxVersionDigits : Nat := 9

/-- Takes a number of a version off the text. -/
def takeVersionNumber? (place : Place) : Option (Nat × Place) :=
  let digits := place.run Char.isDigit
  if digits.isEmpty || digits.length > maxVersionDigits then
    none
  else
    some (digits.foldl (fun number c => number * 10 + (c.toNat - 0x30)) 0,
      place.advance digits.length)

def takeVersion? (place : Place) : Option (Directive × Place) := do
  let (major, point) ← takeVersionNumber? (place.skipWhile isBlank)
  if point.sees (· == '.') then
    let (minor, after) ← takeVersionNumber? (point.advance 1)
    return (.version major minor, after)
  else
    none

def takeTag? (place : Place) : Option (Directive × Place) := do
  let (handle, named) ← TagText.takeHandle? (place.skipWhile isBlank)
  if handle != ['!'] && !(handle.length > 1 && handle.getLast? == some '!') then
    none
  else if !named.sees isBlank then
    none
  else
    let (beginning, after) ← TagText.takeUri? true (named.skipWhile isBlank)
    if beginning.isEmpty || !endsWord after.rest then
      none
    else
      return (.tag handle beginning, after)

/-- Scans a directive with the rest of its line. -/
def scan (place : Place) : Option (Directive × Place) := do
  let name := (place.advance 1).run isWordChar
  let named := place.advance (name.length + 1)
  if !endsWord named.rest then
    none
  else
    let (directive, after) ←
      if name == "YAML".toList then takeVersion? named
      else if name == "TAG".toList then takeTag? named
      else none
    return (directive, ← after.skipLineEnd?)

end Directive

end TypedClient.Yaml
