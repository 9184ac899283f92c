import TypedClient.Text.Blank

/-!
# Text quoted in messages

A message shows a text between double quotes. Characters that would not be seen
as themselves are written as escapes: controls, blanks other than the space,
format characters and combining marks.
-/

namespace TypedClient.Text

/-- The lower-case hexadecimal digits of a number, without leading zeros. -/
def hexChars (number : Nat) : List Char :=
  (Nat.toDigits 16 number).map fun c => c.toLower

/-- Ranges of characters beyond ASCII that are written by their codes. -/
def hiddenRanges : List (Nat × Nat) :=
  [(0x80, 0xA0), (0xAD, 0xAD), (0x300, 0x36F), (0x378, 0x379), (0x483, 0x489), (0x591, 0x5BD),
    (0x600, 0x605), (0x610, 0x61A), (0x61C, 0x61C), (0x64B, 0x65F), (0x670, 0x670),
    (0x1680, 0x1680), (0x180E, 0x180E), (0x1AB0, 0x1ACE), (0x1DC0, 0x1DFF), (0x2000, 0x200F),
    (0x2028, 0x202F), (0x205F, 0x206F), (0x20D0, 0x20F0), (0x3000, 0x3000), (0x302A, 0x302F),
    (0x3099, 0x309A), (0xE000, 0xF8FF), (0xFE00, 0xFE0F), (0xFE20, 0xFE2F), (0xFEFF, 0xFEFF),
    (0xFF9E, 0xFF9F), (0xFFF0, 0xFFFB), (0xFFFE, 0xFFFF), (0xE0000, 0x10FFFF)]

/-- Whether a character is shown as itself. -/
def isShown (c : Char) : Bool :=
  let code := c.toNat
  if code < 0x80 then
    0x20 ≤ code && code < 0x7F
  else
    !hiddenRanges.any fun (first, last) => first ≤ code && code ≤ last

/-- A character as it is shown between double quotes. -/
def displayedChar (c : Char) : List Char :=
  if c == '\x00' then ['\\', '0']
  else if c == '\t' then ['\\', 't']
  else if c == '\r' then ['\\', 'r']
  else if c == '\n' then ['\\', 'n']
  else if c == '"' || c == '\\' then ['\\', c]
  else if isShown c then [c]
  else '\\' :: 'u' :: '\x7b' :: (hexChars c.toNat ++ ['\x7d'])

/-- A text as a message shows it. -/
def displayed (text : String) : String :=
  String.ofList ('"' :: (text.toList.flatMap displayedChar ++ ['"']))

end TypedClient.Text
