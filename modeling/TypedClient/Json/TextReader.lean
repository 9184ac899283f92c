import TypedClient.Json.Cursor

/-!
# Reading texts

The body of a text in double quotes. A text whose value is wanted must be valid
Unicode with paired surrogates; one that is skipped only has to be well formed.
-/

namespace TypedClient.Json.Reader

def quoteByte : UInt8 := 0x22
def backslashByte : UInt8 := 0x5C

def hexDigit? (byte : UInt8) : Option Nat :=
  if 0x30 ≤ byte && byte ≤ 0x39 then some (byte.toNat - 0x30)
  else if 0x41 ≤ byte && byte ≤ 0x46 then some (byte.toNat - 0x37)
  else if 0x61 ≤ byte && byte ≤ 0x66 then some (byte.toNat - 0x57)
  else none

/-- Four hexadecimal digits. All four bytes are taken before any is judged. -/
def readHex : Reader Nat := do
  let a ← next?
  let b ← next?
  let c ← next?
  let d ← next?
  match a, b, c, d with
  | some a, some b, some c, some d =>
      match hexDigit? a, hexDigit? b, hexDigit? c, hexDigit? d with
      | some a, some b, some c, some d => return ((a * 16 + b) * 16 + c) * 16 + d
      | _, _, _, _ => failHere .invalidEscape
  | _, _, _, _ => failHere .endInText

/-- Takes a byte that has to be the given one; the byte after a leading surrogate
belongs to the escape of the trailing one. -/
def expectSurrogateByte (expected : UInt8) : Reader Unit := do
  match ← peek? with
  | none => failHere .endInText
  | some byte =>
      skip
      if byte != expected then failHere .unfinishedSurrogate

/-- The character of a hexadecimal escape, after its `u`. -/
def readUnicodeEscape : Reader Char := do
  let unit ← readHex
  if 0xDC00 ≤ unit && unit ≤ 0xDFFF then
    failHere .loneSurrogate
  else if 0xD800 ≤ unit && unit ≤ 0xDBFF then
    expectSurrogateByte backslashByte
    expectSurrogateByte 0x75
    let trailing ← readHex
    if 0xDC00 ≤ trailing && trailing ≤ 0xDFFF then
      return Char.ofNat ((unit - 0xD800) * 0x400 + (trailing - 0xDC00) + 0x10000)
    else
      failHere .loneSurrogate
  else
    return Char.ofNat unit

/-- The character that a byte stands for after a backslash. -/
def simpleEscape? (byte : UInt8) : Option Char :=
  if byte == 0x22 then some '"'
  else if byte == 0x5C then some '\\'
  else if byte == 0x2F then some '/'
  else if byte == 0x62 then some '\x08'
  else if byte == 0x66 then some '\x0c'
  else if byte == 0x6E then some '\n'
  else if byte == 0x72 then some '\r'
  else if byte == 0x74 then some '\t'
  else none

/-- The character of an escape, after its backslash. -/
def readEscape : Reader Char := do
  match ← next? with
  | none => failHere .endInText
  | some byte =>
      match simpleEscape? byte with
      | some c => return c
      | none => if byte == 0x75 then readUnicodeEscape else failHere .invalidEscape

/-- The bytes of a text up to its closing quote, in reverse order. Every round
takes at least one byte. -/
def readBody (taken : List UInt8) : (rounds : Nat) → Reader (List UInt8)
  | 0 => failHere .endInText
  | rounds + 1 => do
      match ← peek? with
      | none => failHere .endInText
      | some byte =>
          if byte == quoteByte then
            return taken
          else if byte == backslashByte then
            skip
            let c ← readEscape
            readBody ((String.utf8EncodeChar c).reverse ++ taken) rounds
          else if byte < 0x20 then
            skip
            failHere .controlCharacter
          else
            skip
            readBody (byte :: taken) rounds

/-- The bytes left in the text. -/
def remaining : Reader Nat := fun cursor =>
  .ok (cursor.rest.length, cursor)

/-- A text, after its opening quote. -/
def readText : Reader String := do
  let taken ← readBody [] ((← remaining) + 1)
  match String.fromUTF8? ⟨taken.reverse.toArray⟩ with
  | some text =>
      skip
      return text
  | none => failHere .invalidUnicode

/-- Skips an escape, after its backslash. -/
def skipEscape : Reader Unit := do
  match ← next? with
  | none => failHere .endInText
  | some byte =>
      if (simpleEscape? byte).isSome then
        return
      else if byte == 0x75 then
        let _ ← readHex
        return
      else
        failHere .invalidEscape

def skipBody : (rounds : Nat) → Reader Unit
  | 0 => failHere .endInText
  | rounds + 1 => do
      match ← peek? with
      | none => failHere .endInText
      | some byte =>
          if byte == quoteByte then
            skip
          else if byte == backslashByte then
            skip
            skipEscape
            skipBody rounds
          else if byte < 0x20 then
            failHere .controlCharacter
          else
            skip
            skipBody rounds

/-- Skips a text, after its opening quote. -/
def skipText : Reader Unit := do
  skipBody ((← remaining) + 1)

end TypedClient.Json.Reader
