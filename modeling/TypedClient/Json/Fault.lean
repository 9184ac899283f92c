import TypedClient.Json.NumberText
import TypedClient.Text.Displayed

/-!
# What can be wrong with a JSON document

Faults of the text, and values of the wrong shape. A fault found while reading
the text has a position there; one found in a value that was read before has none.
-/

namespace TypedClient.Json

/-- What was found in place of an expected value. -/
inductive Found where
  | null
  | boolean (value : Bool)
  | number (value : Number)
  | text (value : String)
  | sequence
  | mapping
  deriving DecidableEq, Repr

def Value.found : Value → Found
  | .null => .null
  | .boolean value => .boolean value
  | .number value => .number value
  | .text value => .text value
  | .sequence _ => .sequence
  | .mapping _ => .mapping

namespace Found

def message : Found → String
  | null => "null"
  | boolean value => "boolean `" ++ (if value then "true" else "false") ++ "`"
  | number (.integer value) => "integer `" ++ toString value ++ "`"
  | number (.float bits) => "floating point `" ++ floatText bits ++ "`"
  | text value => "string " ++ Text.displayed value
  | sequence => "sequence"
  | mapping => "map"

end Found

/-- The reasons for which a document is refused. -/
inductive Fault where
  | expectedValue
  | expectedWord
  | expectedColon
  | expectedObjectEnd
  | expectedListEnd
  | keyNotText
  | keyNotFinite
  | trailingComma
  | trailingCharacters
  | endInValue
  | endInText
  | endInList
  | endInObject
  | invalidEscape
  | invalidNumber
  | numberOutOfRange
  | loneSurrogate
  | unfinishedSurrogate
  | controlCharacter
  | invalidUnicode
  | tooDeep
  | wrongType (found : Found) (expected : String)
  | wrongLength (length : Nat) (expected : String)
  | missingField (name : String)
  | duplicateField (name : String)
  deriving DecidableEq, Repr

namespace Fault

def message : Fault → String
  | expectedValue => "expected value"
  | expectedWord => "expected ident"
  | expectedColon => "expected `:`"
  | expectedObjectEnd => "expected `,` or `\x7d`"
  | expectedListEnd => "expected `,` or `]`"
  | keyNotText => "key must be a string"
  | keyNotFinite => "float key must be finite (got NaN or +/-inf)"
  | trailingComma => "trailing comma"
  | trailingCharacters => "trailing characters"
  | endInValue => "EOF while parsing a value"
  | endInText => "EOF while parsing a string"
  | endInList => "EOF while parsing a list"
  | endInObject => "EOF while parsing an object"
  | invalidEscape => "invalid escape"
  | invalidNumber => "invalid number"
  | numberOutOfRange => "number out of range"
  | loneSurrogate => "lone leading surrogate in hex escape"
  | unfinishedSurrogate => "unexpected end of hex escape"
  | controlCharacter => "control character (\\u0000-\\u001F) found while parsing a string"
  | invalidUnicode => "invalid unicode code point"
  | tooDeep => "recursion limit exceeded"
  | wrongType found expected => "invalid type: " ++ found.message ++ ", expected " ++ expected
  | wrongLength length expected =>
      "invalid length " ++ toString length ++ ", expected " ++ expected
  | missingField name => "missing field `" ++ name ++ "`"
  | duplicateField name => "duplicate field `" ++ name ++ "`"

end Fault

/-- A line, counted from one, and the number of bytes read on it. -/
structure Position where
  line : Nat
  column : Nat
  deriving DecidableEq, Repr

/-- A fault, with its position if it was found in the text itself. -/
structure ReadError where
  fault : Fault
  position : Option Position
  deriving DecidableEq, Repr

namespace ReadError

def message (error : ReadError) : String :=
  match error.position with
  | none => error.fault.message
  | some ⟨line, column⟩ =>
      error.fault.message ++ " at line " ++ toString line ++ " column " ++ toString column

end ReadError

end TypedClient.Json
