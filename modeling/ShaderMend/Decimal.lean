/-!
# Decimal numbers

A decimal as texts write it, and the double that stands for it. The significand is
converted first and then scaled, so the double may differ from the nearest one in
its last place.
-/

namespace ShaderMend

/-- A decimal number: `±significand · 10 ^ exponent`. -/
structure Decimal where
  negative : Bool
  significand : Nat
  exponent : Int
  deriving DecidableEq, Repr

namespace Decimal

/-- The power of ten as a double. -/
def tenTo (power : Nat) : Float :=
  Float.ofScientific 1 false power

/-- The largest power of ten that a double holds. -/
def maxPower : Nat := 308

/-- The double nearest to the significand, scaled by the power of ten in at most
three roundings. -/
def magnitude (decimal : Decimal) : Float :=
  let significand := decimal.significand.toUInt64.toFloat
  match decimal.exponent with
  | .ofNat power =>
      if decimal.significand = 0 then 0
      else if power ≤ maxPower then significand * tenTo power
      else significand * tenTo maxPower * tenTo maxPower
  | .negSucc power =>
      let power := power + 1
      if power ≤ maxPower then significand / tenTo power
      else if power ≤ 2 * maxPower then significand / tenTo maxPower / tenTo (power - maxPower)
      else 0

/-- The double that the decimal stands for. -/
def toFloat (decimal : Decimal) : Float :=
  if decimal.negative then -decimal.magnitude else decimal.magnitude

/-- Whether a double holds the magnitude. -/
def isFinite (decimal : Decimal) : Bool :=
  decimal.magnitude.isFinite

end Decimal

end ShaderMend
