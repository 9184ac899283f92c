import TypedClient.Json.TextReader

/-!
# Reading numbers

An integer that fits in 64 bits stays an integer. Any other number becomes a
float: its digits, as far as they fit in 64 bits, are rounded once, and the result
is multiplied or divided once by a power of ten.
-/

namespace TypedClient.Json.Reader

def isDigitByte (byte : UInt8) : Bool :=
  0x30 ≤ byte && byte ≤ 0x39

def digitValue (byte : UInt8) : Nat :=
  byte.toNat - 0x30

/-- The largest significand. -/
def maxSignificand : Nat := 0xFFFFFFFFFFFFFFFF

/-- The largest exponent that is read digit by digit. -/
def maxExponent : Nat := 0x7FFFFFFF

def powerOfTen (exponent : Nat) : Float :=
  Float.ofScientific 1 false exponent

/-- A number moved by a power of ten; nothing if it leaves the range of floats. A
far exponent is applied in steps. -/
def moveByPower (number : Float) (exponent : Int) : Option Float :=
  if exponent.natAbs ≤ 308 then
    if 0 ≤ exponent then
      let moved := number * powerOfTen exponent.natAbs
      if moved.isInf then none else some moved
    else
      some (number / powerOfTen exponent.natAbs)
  else if number == 0 then
    some number
  else if 0 ≤ exponent then
    none
  else
    moveByPower (number / powerOfTen 308) (exponent + 308)
termination_by exponent.natAbs
decreasing_by omega

/-- The float of a significand and an exponent. -/
def closeFloat (positive : Bool) (significand : Nat) (exponent : Int) : Reader Number := do
  match moveByPower (Float.ofNat significand) exponent with
  | none => failHere .numberOutOfRange
  | some magnitude => return .float (if positive then magnitude else -magnitude).toBits

/-- A run of digits, given how many bytes there are at most. Digits are added to
`number` while the result stays within `limit`; the count of those added is the
second component, and the third says whether a digit did not fit. -/
def readDigits (limit : Nat) (number added : Nat) : (rounds : Nat) → Reader (Nat × Nat × Bool)
  | 0 => return (number, added, false)
  | rounds + 1 => do
      match ← peek? with
      | none => return (number, added, false)
      | some byte =>
          if isDigitByte byte then
            let longer := number * 10 + digitValue byte
            if longer ≤ limit then
              skip
              readDigits limit longer (added + 1) rounds
            else
              return (number, added, true)
          else
            return (number, added, false)

def isExponentMark (byte : Option UInt8) : Bool :=
  byte == some 0x65 || byte == some 0x45

/-- Takes the sign of an exponent; a missing sign is a plus. -/
def readExponentSign : Reader Bool := do
  match ← peek? with
  | some 0x2B => do skip; return true
  | some 0x2D => do skip; return false
  | _ => return true

/-- The exponent part, at its mark. -/
def readExponent (positive : Bool) (significand : Nat) (start : Int) : Reader Number := do
  skip
  let upwards ← readExponentSign
  match ← next? with
  | none => failHere .endInValue
  | some byte =>
      if isDigitByte byte then
        let (exponent, _, tooLarge) ←
          readDigits maxExponent (digitValue byte) 0 (← remaining)
        if tooLarge then
          skip
          if significand != 0 && upwards then
            failHere .numberOutOfRange
          else
            skipWhile isDigitByte
            return .float (if positive then (0.0 : Float) else -0.0).toBits
        else
          closeFloat positive significand (if upwards then start + exponent else start - exponent)
      else
        failHere .invalidNumber

/-- The fraction part, at its point. `start` is the exponent of the digits read
before it. -/
def readFraction (positive : Bool) (significand : Nat) (start : Int) : Reader Number := do
  skip
  let (longer, added, dropped) ← readDigits maxSignificand significand 0 (← remaining)
  if dropped then
    skipWhile isDigitByte
  else if added == 0 then
    match ← peek? with
    | some _ => failAhead .invalidNumber
    | none => failAhead .endInValue
  let exponent := start - added
  if isExponentMark (← peek?) then
    readExponent positive longer exponent
  else
    closeFloat positive longer exponent

/-- What follows the digits before the point. -/
def readAfterInteger (positive : Bool) (significand : Nat) : Reader Number := do
  match ← peek? with
  | some 0x2E => readFraction positive significand 0
  | some byte =>
      if isExponentMark (some byte) then
        readExponent positive significand 0
      else
        whole
  | none => whole
where
  whole : Reader Number :=
    if positive then
      return .integer significand
    else if significand == 0 || significand > 0x8000000000000000 then
      return .float (-(Float.ofNat significand)).toBits
    else
      return .integer (-(significand : Int))

/-- The digits of an integer that does not fit, after those that did. -/
def readLongInteger (positive : Bool) (significand : Nat) : Reader Number := do
  let before ← remaining
  skipWhile isDigitByte
  let exponent := before - (← remaining)
  match ← peek? with
  | some 0x2E => readFraction positive significand exponent
  | next =>
      if isExponentMark next then
        readExponent positive significand exponent
      else
        closeFloat positive significand exponent

/-- A number, after its sign. -/
def readNumber (positive : Bool) : Reader Number := do
  match ← next? with
  | none => failHere .endInValue
  | some 0x30 =>
      match ← peek? with
      | some byte =>
          if isDigitByte byte then failAhead .invalidNumber else readAfterInteger positive 0
      | none => readAfterInteger positive 0
  | some byte =>
      if isDigitByte byte then
        let (significand, _, tooLong) ←
          readDigits maxSignificand (digitValue byte) 0 (← remaining)
        if tooLong then
          readLongInteger positive significand
        else
          readAfterInteger positive significand
      else
        failHere .invalidNumber

/-- Skips an exponent part, at its mark. -/
def skipExponent : Reader Unit := do
  skip
  let _ ← readExponentSign
  match ← next? with
  | some byte => if isDigitByte byte then skipWhile isDigitByte else failHere .invalidNumber
  | none => failHere .invalidNumber

/-- Skips a fraction part, at its point. -/
def skipFraction : Reader Unit := do
  skip
  let before ← remaining
  skipWhile isDigitByte
  if (← remaining) == before then
    failAhead .invalidNumber
  else if isExponentMark (← peek?) then
    skipExponent

/-- Skips a number, after its sign. Its size does not matter. -/
def skipNumber : Reader Unit := do
  match ← next? with
  | some 0x30 =>
      if (← peek?).any isDigitByte then failAhead .invalidNumber else skipRest
  | some byte =>
      if isDigitByte byte then
        skipWhile isDigitByte
        skipRest
      else
        failHere .invalidNumber
  | none => failHere .invalidNumber
where
  skipRest : Reader Unit := do
    match ← peek? with
    | some 0x2E => skipFraction
    | next => if isExponentMark next then skipExponent

end TypedClient.Json.Reader
