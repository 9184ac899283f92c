import TypedClient.Json.NumberReader

/-!
# Reading values

A value is read with at most 127 containers around it. A value that nothing needs
is skipped: it has to be well formed, but it may be nested to any depth, and its
numbers and surrogates are not judged.
-/

namespace TypedClient.Json.Reader

def openList : UInt8 := 0x5B
def closeList : UInt8 := 0x5D
def openObject : UInt8 := 0x7B
def closeObject : UInt8 := 0x7D
def comma : UInt8 := 0x2C
def colon : UInt8 := 0x3A
def minus : UInt8 := 0x2D

/-- The containers that may be open at once, plus one. -/
def maxDepth : Nat := 128

/-- Opens a container, at its first byte: the depth that is left inside it. -/
def enter (depth : Nat) : Reader Nat := do
  if depth ≤ 1 then
    failAhead .tooDeep
  else
    skip
    return depth - 1

/-- Whether another item follows in a list. -/
def moreItems (first : Bool) : Reader Bool := do
  let byte ← peekToken .endInList
  if byte == closeList then
    return false
  else if first then
    return true
  else if byte == comma then
    skip
    if (← peekToken .endInValue) == closeList then failAhead .trailingComma else return true
  else
    failAhead .expectedListEnd

/-- Whether another entry follows in an object. -/
def moreEntries (first : Bool) : Reader Bool := do
  let byte ← peekToken .endInObject
  if byte == closeObject then
    return false
  else if first then
    if byte == quoteByte then return true else failAhead .keyNotText
  else if byte == comma then
    skip
    let byte ← peekToken .endInValue
    if byte == quoteByte then return true
    else if byte == closeObject then failAhead .trailingComma
    else failAhead .keyNotText
  else
    failAhead .expectedObjectEnd

/-- Closes a list after its last wanted item. -/
def closeItems : Reader Unit := do
  let byte ← peekToken .endInList
  if byte == closeList then
    skip
  else if byte == comma then
    skip
    if (← peekToken?) == some closeList then
      failAhead .trailingComma
    else
      failAhead .trailingCharacters
  else
    failAhead .trailingCharacters

/-- A key and its colon. -/
def readKey : Reader String := do
  skip
  readText

def expectColon : Reader Unit := do
  if (← peekToken .endInObject) == colon then skip else failAhead .expectedColon

/-- The items of a list, in reverse order. -/
def readItems {α : Type} (item : Reader α) (taken : List α) : (rounds : Nat) → Reader (List α)
  | 0 => failHere .endInList
  | rounds + 1 => do
      if ← moreItems taken.isEmpty then
        let next ← item
        readItems item (next :: taken) rounds
      else
        return taken

/-- The entries of an object; a repeated key keeps its place and takes the later
value. -/
def readEntries {α : Type} (item : Reader α) (first : Bool) (taken : List (String × α)) :
    (rounds : Nat) → Reader (List (String × α))
  | 0 => failHere .endInObject
  | rounds + 1 => do
      if ← moreEntries first then
        let key ← readKey
        expectColon
        let next ← item
        readEntries item false (putEntry key next taken) rounds
      else
        return taken

/-- The end of a word whose first letter tells which it is. -/
def expectWord (word : String) : Reader Unit :=
  expectBytes (ascii word)

/-- A value that is no container, if one starts with this byte. -/
def readScalar? (byte : UInt8) : Option (Reader Value) :=
  if byte == 0x6E then some do expectWord "null"; return .null
  else if byte == 0x74 then some do expectWord "true"; return .boolean true
  else if byte == 0x66 then some do expectWord "false"; return .boolean false
  else if byte == minus then some do skip; return .number (← readNumber false)
  else if isDigitByte byte then some do return .number (← readNumber true)
  else if byte == quoteByte then some do skip; return .text (← readText)
  else none

/-- A value, with the containers that may still be opened. -/
def readValue (depth : Nat) : (rounds : Nat) → Reader Value
  | 0 => failHere .endInValue
  | rounds + 1 => do
      let byte ← peekToken .endInValue
      match readScalar? byte with
      | some scalar => scalar
      | none =>
          if byte == openList then
            let inner ← enter depth
            let items ← readItems (readValue inner rounds) [] rounds
            closeItems
            return .sequence items.reverse
          else if byte == openObject then
            let inner ← enter depth
            let entries ← readEntries (readValue inner rounds) true [] rounds
            skip
            return .mapping entries
          else
            failAhead .expectedValue

mutual

/-- Skips a value. -/
def skipValue : (rounds : Nat) → Reader Unit
  | 0 => failHere .endInValue
  | rounds + 1 => do
      let byte ← peekToken .endInValue
      if byte == 0x6E then expectWord "null"
      else if byte == 0x74 then expectWord "true"
      else if byte == 0x66 then expectWord "false"
      else if byte == minus then do skip; skipNumber
      else if isDigitByte byte then skipNumber
      else if byte == quoteByte then do skip; skipText
      else if byte == openList then
        skip
        if (← peekToken .endInList) == closeList then skip else skipItems rounds
      else if byte == openObject then
        skip
        if (← peekToken .endInObject) == closeObject then skip else skipEntries rounds
      else
        failAhead .expectedValue

/-- Skips the items of a list and its end. -/
def skipItems : (rounds : Nat) → Reader Unit
  | 0 => failHere .endInList
  | rounds + 1 => do
      skipValue rounds
      let byte ← peekToken .endInList
      if byte == comma then
        skip
        skipItems rounds
      else if byte == closeList then
        skip
      else
        failAhead .expectedListEnd

/-- Skips the entries of an object and its end. -/
def skipEntries : (rounds : Nat) → Reader Unit
  | 0 => failHere .endInObject
  | rounds + 1 => do
      if (← peekToken .endInObject) == quoteByte then skip else failAhead .keyNotText
      skipText
      expectColon
      skipValue rounds
      let byte ← peekToken .endInObject
      if byte == comma then
        skip
        skipEntries rounds
      else if byte == closeObject then
        skip
      else
        failAhead .expectedObjectEnd

end

/-- Nothing but blanks may follow the document. -/
def expectEnd : Reader Unit := do
  match ← peekToken? with
  | some _ => failAhead .trailingCharacters
  | none => return

/-- The rounds that suffice for a text: a round takes a byte or ends a container. -/
def roundsFor (bytes : List UInt8) : Nat :=
  2 * bytes.length + 2

end Reader

/-- Reads a whole text as a value. -/
def Value.ofBytes (bytes : List UInt8) : Except ReadError Value :=
  let read : Reader Value := do
    let value ← Reader.readValue Reader.maxDepth (Reader.roundsFor bytes)
    Reader.expectEnd
    return value
  (read.run (.start bytes)).map Prod.fst

end TypedClient.Json
