import TypedClient.Json.NumberText
import TypedClient.Json.Value

/-!
# The meaning of plain scalars

A plain scalar is null, a boolean, an integer, a float or a text, by its spelling
alone. Digits after a leading zero are a text, and an integer needs to fit in 64
bits; one that fits only in 128 bits is refused.
-/

namespace TypedClient.Yaml.CoreSchema

open Json

/-- What a scalar can mean. -/
inductive Scalar where
  | null
  | boolean (value : Bool)
  | number (value : Number)
  | text (value : String)
  deriving DecidableEq, Repr

/-- The spellings of null beside the empty scalar. -/
def isNull (text : String) : Bool :=
  ["null", "Null", "NULL", "~"].contains text

def boolean? (text : String) : Option Bool :=
  if ["true", "True", "TRUE"].contains text then some true
  else if ["false", "False", "FALSE"].contains text then some false
  else none

def digitValue (c : Char) : Nat :=
  if c.isDigit then c.toNat - 0x30
  else if 'a' ≤ c ∧ c ≤ 'z' then c.toNat - 0x57
  else if 'A' ≤ c ∧ c ≤ 'Z' then c.toNat - 0x37
  else 36

/-- The number written by digits of a base, of which there is at least one. -/
def magnitude? (base : Nat) (digits : List Char) : Option Nat :=
  if digits.isEmpty || !digits.all (digitValue · < base) then
    none
  else
    some (digits.foldl (fun number c => number * base + digitValue c) 0)

/-- A sign and the text after it. -/
def splitSign : List Char → Option Char × List Char
  | '+' :: rest => (some '+', rest)
  | '-' :: rest => (some '-', rest)
  | text => (none, text)

/-- Whether a text is a leading zero with more digits after it. -/
def isZeroLed (text : List Char) : Bool :=
  match (splitSign text).2 with
  | '0' :: rest => !rest.isEmpty && rest.all Char.isDigit
  | _ => false

/-- The number after a base mark: hexadecimal, octal or binary. -/
def markedMagnitude? : List Char → Option Nat
  | '0' :: 'x' :: digits => magnitude? 16 digits
  | '0' :: 'o' :: digits => magnitude? 8 digits
  | '0' :: 'b' :: digits => magnitude? 2 digits
  | _ => none

/-- The integer that a text writes, of any size. -/
def integer? (text : List Char) : Option Int :=
  let (sign, unsigned) := splitSign text
  let magnitude? :=
    match markedMagnitude? unsigned with
    | some magnitude => some magnitude
    | none => if isZeroLed text then none else magnitude? 10 unsigned
  magnitude?.map fun magnitude =>
    if sign = some '-' then -(Int.ofNat magnitude) else Int.ofNat magnitude

/-- Whether an integer fits in some bits, with a sign only if it is negative. -/
def fitsBits (bits : Nat) (number : Int) : Bool :=
  if number < 0 then number.natAbs ≤ Nat.pow 2 (bits - 1) else number.natAbs < Nat.pow 2 bits

/-- A decimal number: its digits, and the power of ten they are multiplied by. -/
structure Decimal where
  digits : Nat
  exponent : Int

/-- The exponent after its mark; without a mark it is zero. -/
def exponent? : List Char → Option Int
  | [] => some 0
  | mark :: rest =>
      if mark == 'e' || mark == 'E' then
        let (sign, digits) := splitSign rest
        (magnitude? 10 digits).map fun magnitude =>
          if sign = some '-' then -(Int.ofNat magnitude) else Int.ofNat magnitude
      else
        none

/-- The decimal number that an unsigned text writes. -/
def decimal? (text : List Char) : Option Decimal :=
  let whole := text.takeWhile Char.isDigit
  let afterWhole := text.dropWhile Char.isDigit
  let (fraction, rest) :=
    match afterWhole with
    | '.' :: others => (others.takeWhile Char.isDigit, others.dropWhile Char.isDigit)
    | _ => ([], afterWhole)
  do
    let digits ← magnitude? 10 (whole ++ fraction)
    let exponent ← exponent? rest
    return ⟨digits, exponent - fraction.length⟩

/-- The decimal exponents beyond which every float is infinite or zero. -/
def exponentBound : Nat := 400

/-- The float nearest to a decimal number. -/
def Decimal.toFloat (number : Decimal) : Float :=
  let size := number.exponent + (Nat.toDigits 10 number.digits).length
  if number.digits == 0 || size < -(exponentBound : Int) then 0
  else if (exponentBound : Int) < size then 1 / 0
  else Float.ofScientific number.digits (number.exponent < 0) number.exponent.natAbs

/-- The bits of the float that an unsigned text writes, if it is finite. -/
def finiteBits? (text : List Char) : Option UInt64 := do
  let bits := (← decimal? text).toFloat.toBits
  if isFiniteBits bits then some bits else none

def infinityBits : UInt64 := 0x7FF0000000000000
def nanBits : UInt64 := 0x7FF8000000000000

/-- The bits of the float that a text writes. -/
def floatBits? (text : String) : Option UInt64 :=
  let (sign, unsigned) := splitSign text.toList
  let signed (bits : UInt64) : UInt64 := if sign = some '-' then bits ||| signBit else bits
  if [".inf", ".Inf", ".INF"].contains (String.ofList unsigned) then
    some (signed infinityBits)
  else if [".nan", ".NaN", ".NAN"].contains text then
    some nanBits
  else
    (finiteBits? unsigned).map signed

/-- The integer that a text writes, or a refusal if it is too large. A text that is
no integer of 128 bits is none at all. -/
def integerMeaning? (text : String) : Option (Option Scalar) :=
  match integer? text.toList with
  | none => none
  | some number =>
      if fitsBits 64 number then some (some (.number (.integer number)))
      else if fitsBits 128 number then some none
      else none

/-- The meaning of a plain scalar without a tag; nothing if it is refused. -/
def plainMeaning (text : String) : Option Scalar :=
  if text.isEmpty || isNull text then
    some .null
  else
    match boolean? text with
    | some value => some (.boolean value)
    | none =>
        match integerMeaning? text with
        | some meaning => meaning
        | none =>
            if isZeroLed text.toList then
              some (.text text)
            else
              match floatBits? text with
              | some bits => some (.number (.float bits))
              | none => some (.text text)

/-- What the tags of the core schema start with. -/
def tagBeginning : String := "tag:yaml.org,2002:"

/-- The meaning of a scalar with a tag of a standard type, whatever its quotes. A
scalar that is not of that type is refused; with any other tag it is a text. -/
def taggedMeaning (tag text : String) : Option Scalar :=
  if tag == tagBeginning ++ "bool" then
    (boolean? text).map .boolean
  else if tag == tagBeginning ++ "int" then
    (integerMeaning? text).join
  else if tag == tagBeginning ++ "float" then
    (floatBits? text).map fun bits => .number (.float bits)
  else if tag == tagBeginning ++ "null" then
    if isNull text then some .null else none
  else
    some (.text text)

end TypedClient.Yaml.CoreSchema
