import TypedClient.Decimal.Shortest
import TypedClient.Json.Value

/-!
# The text of a number

A float is written with the fewest digits that read back. It always shows a
point or an exponent: positional notation for magnitudes from `1e-5` up to, but
not including, `1e16`, and scientific notation with a signed exponent otherwise.
-/

namespace TypedClient.Json

open Decimal

/-- The digits of a positive decimal with the point put in place. -/
def scientificText (number : Scientific) : String :=
  let digits := toString number.digits
  let count := digits.length
  let point : Int := count + number.exponent
  if 0 ≤ number.exponent ∧ point ≤ 16 then
    digits ++ String.ofList (List.replicate number.exponent.toNat '0') ++ ".0"
  else if 0 < point ∧ point ≤ 16 then
    String.ofList (digits.toList.take point.toNat) ++ "." ++
      String.ofList (digits.toList.drop point.toNat)
  else if -5 < point ∧ point ≤ 0 then
    "0." ++ String.ofList (List.replicate (-point).toNat '0') ++ digits
  else
    let mantissa :=
      if count = 1 then digits
      else String.ofList (digits.toList.take 1) ++ "." ++ String.ofList (digits.toList.drop 1)
    let sign := if point ≤ 0 then "-" else "+"
    mantissa ++ "e" ++ sign ++ toString (point - 1).natAbs

def signBit : UInt64 := 0x8000000000000000

/-- Whether the bits are those of a finite number. -/
def isFiniteBits (bits : UInt64) : Bool :=
  bits.toNat / Nat.pow 2 52 % Nat.pow 2 11 != 2047

/-- The text of a finite float. -/
def floatText (bits : UInt64) : String :=
  let sign := if bits &&& signBit == 0 then "" else "-"
  let magnitude := bits &&& (0x7FFFFFFFFFFFFFFF : UInt64)
  if magnitude == 0 then
    sign ++ "0.0"
  else
    sign ++ scientificText (Binary.ofBits magnitude).shortest

end TypedClient.Json
