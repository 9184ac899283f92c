/-!
# The shortest decimal of a binary number

A positive binary number is `significand * 2 ^ exponent`. Of the decimals that
read back as it, the shortest is the one with the fewest digits, and of those
with equally many the nearest. For each count of digits only the two grid points
around the number can be the nearest, so two are tried for every count.
-/

namespace TypedClient.Decimal

/-- A decimal `digits * 10 ^ exponent`. -/
structure Scientific where
  digits : Nat
  exponent : Int
  deriving DecidableEq, Repr

/-- A positive binary number `significand * 2 ^ exponent`. `lowerGap` says that
the next smaller number is only half as far away as the next larger one. -/
structure Binary where
  significand : Nat
  exponent : Int
  lowerGap : Bool

/-- The finite positive number with the given bits of a 64-bit float, the sign
aside. -/
def Binary.ofBits (bits : UInt64) : Binary :=
  let fraction : Nat := bits.toNat % Nat.pow 2 52
  let biased : Nat := bits.toNat / Nat.pow 2 52 % Nat.pow 2 11
  if biased == 0 then
    ⟨fraction, -1074, false⟩
  else
    ⟨fraction + Nat.pow 2 52, (biased : Int) - 1075, fraction == 0 && biased > 1⟩

/-- A fraction with a positive denominator. -/
structure Fraction where
  numerator : Nat
  denominator : Nat

/-- `count * base ^ power` as a fraction. -/
def Fraction.scaled (count base : Nat) (power : Int) : Fraction :=
  if power < 0 then
    ⟨count, Nat.pow base power.natAbs⟩
  else
    ⟨count * Nat.pow base power.natAbs, 1⟩

def Fraction.le (left right : Fraction) : Bool :=
  left.numerator * right.denominator ≤ right.numerator * left.denominator

def Fraction.lt (left right : Fraction) : Bool :=
  left.numerator * right.denominator < right.numerator * left.denominator

/-- The number itself, and the ends of the interval of reals that round to it. -/
def Binary.value (number : Binary) : Fraction :=
  .scaled (4 * number.significand) 2 (number.exponent - 2)

def Binary.upper (number : Binary) : Fraction :=
  .scaled (4 * number.significand + 2) 2 (number.exponent - 2)

def Binary.lower (number : Binary) : Fraction :=
  let step := if number.lowerGap then 1 else 2
  .scaled (4 * number.significand - step) 2 (number.exponent - 2)

/-- Whether a decimal reads back as the number. The ends of the interval round to
the number whose significand is even. -/
def Binary.accepts (number : Binary) (candidate : Scientific) : Bool :=
  let point := Fraction.scaled candidate.digits 10 candidate.exponent
  if number.significand % 2 == 0 then
    number.lower.le point && point.le number.upper
  else
    number.lower.lt point && point.lt number.upper

/-- The least power of ten above a positive fraction, searched upwards from
`power`. -/
def magnitudeFrom (value : Fraction) (rounds : Nat) (power : Int) : Int :=
  match rounds with
  | 0 => power
  | rounds + 1 =>
      if value.lt (.scaled 1 10 power) then power else magnitudeFrom value rounds (power + 1)

/-- The `m` with `10 ^ (m - 1) ≤ value < 10 ^ m`, for the values of 64-bit floats. -/
def magnitude (value : Fraction) : Int :=
  magnitudeFrom value 640 (-325)

/-- The grid point at or below a fraction, in units of `10 ^ unit`. -/
def floorAt (value : Fraction) (unit : Int) : Nat :=
  if unit < 0 then
    value.numerator * Nat.pow 10 unit.natAbs / value.denominator
  else
    value.numerator / (value.denominator * Nat.pow 10 unit.natAbs)

/-- Whether the point below is at least as near to the value as the point above. -/
def belowIsNearer (value : Fraction) (below : Nat) (unit : Int) : Bool :=
  2 * value.numerator * Nat.pow 10 (-unit).toNat ≤
    (2 * below + 1) * value.denominator * Nat.pow 10 unit.toNat

/-- The nearest decimal of the given unit that reads back as the number. -/
def Binary.candidate? (number : Binary) (unit : Int) : Option Scientific :=
  let below := floorAt number.value unit
  let low : Scientific := ⟨below, unit⟩
  let high : Scientific := ⟨below + 1, unit⟩
  match number.accepts low, number.accepts high with
  | true, true => some (if belowIsNearer number.value below unit then low else high)
  | true, false => some low
  | false, true => some high
  | false, false => none

/-- A decimal without trailing zeros in its digits; each round drops one. -/
def Scientific.stripZeros (number : Scientific) : (rounds : Nat) → Scientific
  | 0 => number
  | rounds + 1 =>
      if number.digits ≠ 0 ∧ number.digits % 10 = 0 then
        stripZeros ⟨number.digits / 10, number.exponent + 1⟩ rounds
      else
        number

/-- The shortest decimal that reads back as the number, searched from `count`
digits upwards. Seventeen digits always suffice. -/
def Binary.shortestFrom (number : Binary) (rounds count : Nat) : Scientific :=
  let unit := magnitude number.value - count
  match rounds with
  | 0 => ⟨floorAt number.value unit, unit⟩
  | rounds + 1 =>
      match number.candidate? unit with
      | some found => found.stripZeros 20
      | none => number.shortestFrom rounds (count + 1)

def Binary.shortest (number : Binary) : Scientific :=
  number.shortestFrom 17 1

end TypedClient.Decimal
