import ShaderMend.Decimal

/-!
# The shortest decimal that reads back

A double stands for all reals that round to it. `Decimal.shortest` finds the
coarsest decimal grid with a point among them, and of two such points the nearer.
All arithmetic is on natural numbers: every quantity is multiplied by one power of
two and one power of ten that make it whole.
-/

namespace ShaderMend.Decimal

/-- The reals that round to a double, in units of `2 ^ -1080 · 10 ^ -345`. -/
structure Rounding where
  lower : Nat
  value : Nat
  upper : Nat
  /-- Whether the ends round to the double too. -/
  closed : Bool
  deriving Repr

namespace Rounding

/-- The power of two that makes every double, and the middle between two, whole. -/
def binaryScale : Nat := 1080

/-- The power of ten that makes every grid used whole. -/
def decimalScale : Nat := 345

/-- The interval of a double of positive sign. -/
def ofFloat (x : Float) : Rounding :=
  let bits := x.toBits.toNat
  let hidden := Nat.pow 2 52
  let fraction := bits % hidden
  let exponent := bits / hidden % 2048
  let significand := if exponent = 0 then fraction else fraction + hidden
  let quarter := Nat.pow 2 ((max exponent 1) + binaryScale - 1077) * Nat.pow 10 decimalScale
  let below := if fraction = 0 ∧ 1 < exponent then 1 else 2
  { lower := (4 * significand - below) * quarter
    value := 4 * significand * quarter
    upper := (4 * significand + 2) * quarter
    closed := significand % 2 = 0 }

/-- Whether a real rounds to the double. -/
def holds (interval : Rounding) (real : Nat) : Bool :=
  if interval.closed then interval.lower ≤ real && real ≤ interval.upper
  else interval.lower < real && real < interval.upper

/-- The point of the grid of a unit that lies in the interval, the nearer of two. Of
two that are as near, the even one is taken. -/
def gridPoint? (interval : Rounding) (unit : Nat) : Option Nat :=
  let below := interval.value / unit
  let above := below + 1
  let toBelow := interval.value - below * unit
  let toAbove := above * unit - interval.value
  let isBelowNearer := toBelow < toAbove ∨ (toBelow = toAbove ∧ below % 2 = 0)
  let belowHit := below ≠ 0 ∧ interval.holds (below * unit)
  if interval.holds (above * unit) then
    if belowHit ∧ isBelowNearer then some below else some above
  else if belowHit then some below
  else none

end Rounding

/-- The exponents of the grids, coarsest first. -/
def gridExponents : List Int :=
  (List.range 654).map fun step => 309 - Int.ofNat step

/-- The shortest decimal that rounds to the magnitude of a double, as significand
and exponent. -/
def shortest (x : Float) : Nat × Int :=
  let interval := Rounding.ofFloat x.abs
  let point? := gridExponents.findSome? fun (exponent : Int) =>
    let unit :=
      Nat.pow 10 (exponent + Rounding.decimalScale).toNat * Nat.pow 2 Rounding.binaryScale
    (interval.gridPoint? unit).map (·, exponent)
  if interval.value = 0 then (0, 0) else point?.getD (0, 0)

/-- A significand and an exponent without exponential notation, with at least one
digit on each side of the point. -/
def positional (significand : Nat) (exponent : Int) : String :=
  let digits := Nat.toDigits 10 significand
  if 0 ≤ exponent then
    String.ofList (digits ++ List.replicate exponent.toNat '0') ++ ".0"
  else
    let places := (-exponent).toNat
    let padded := List.replicate (places + 1 - digits.length) '0' ++ digits
    let whole := padded.length - places
    String.ofList (padded.take whole ++ '.' :: padded.drop whole)

/-- A significand and an exponent with one digit before the point, followed by a
power of ten with its sign. A point without digits behind it is left out. -/
def scientific (significand : Nat) (exponent : Int) : String :=
  let digits := Nat.toDigits 10 significand
  let power := exponent + (digits.length - 1 : Nat)
  let mantissa :=
    match digits with
    | first :: second :: rest => first :: '.' :: second :: rest
    | _ => digits
  let sign := if power < 0 then "-" else "+"
  String.ofList mantissa ++ "e" ++ sign ++ toString power.natAbs

/-- The least power of ten of the first digit that is written without exponent. -/
def minPositional : Int := -5

/-- The largest power of ten of the first digit that is written without exponent. -/
def maxPositional : Int := 15

/-- A significand and an exponent: positional for middling magnitudes and for zero,
scientific for others. -/
def digitsText (significand : Nat) (exponent : Int) : String :=
  let power := exponent + ((Nat.toDigits 10 significand).length - 1 : Nat)
  let isMiddling := minPositional ≤ power ∧ power ≤ maxPositional
  if significand = 0 ∨ isMiddling then positional significand exponent
  else scientific significand exponent

/-- Whether the sign of a double is minus. -/
def isMinus (x : Float) : Bool :=
  x.toBits.toNat / 0x8000000000000000 = 1

/-- The shortest text of a double, with its sign. -/
def floatText (x : Float) : String :=
  (if isMinus x then "-" else "") ++ digitsText (shortest x).1 (shortest x).2

end ShaderMend.Decimal
