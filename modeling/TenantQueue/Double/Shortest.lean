import TenantQueue.Double.Basic

/-! The decimal text of a double: the fewest digits that read back as the same
double, the nearest of those, written without an exponent; and the text with six
places after the point. -/
namespace TenantQueue
namespace Double

/-- `digits` times ten to the power `exponent`. -/
structure Decimal where
  digits : Nat
  exponent : Int
  deriving DecidableEq

namespace Decimal

def ratio (decimal : Decimal) : Nat × Nat :=
  if 0 ≤ decimal.exponent then (decimal.digits * Nat.pow 10 decimal.exponent.toNat, 1)
  else (decimal.digits, Nat.pow 10 (-decimal.exponent).toNat)

def reads (decimal : Decimal) (magnitude : Nat) : Bool :=
  let (numerator, denominator) := decimal.ratio
  nearestMagnitude (numerator * stepsPerUnit) denominator == magnitude

def plain (decimal : Decimal) : String :=
  let digits := Nat.repr decimal.digits
  if 0 ≤ decimal.exponent then
    if decimal.digits = 0 then "0" else digits ++ String.ofList (List.replicate decimal.exponent.toNat '0')
  else
    let places := (-decimal.exponent).toNat
    let padded := List.replicate (places + 1 - digits.length) '0' ++ digits.toList
    let whole := padded.take (padded.length - places)
    let fraction := ((padded.drop (padded.length - places)).reverse.dropWhile (· == '0')).reverse
    if fraction.isEmpty then String.ofList whole else String.ofList (whole ++ '.' :: fraction)

end Decimal

/-- The power of ten of the leading digit of `steps` steps, or one less. -/
private def leadingPower (steps : Nat) : Int :=
  ((steps.log2 : Int) - 1074) * 30103 / 100000

/-- Of the two neighbours of the value on the grid of ten to the power `exponent`, the nearer one
that reads back; halfway between them the one farther from zero. -/
private def onGrid? (magnitude : Nat) (exponent : Int) : Option Decimal :=
  let steps := stepsOfMagnitude magnitude
  let (numerator, denominator) :=
    if 0 ≤ exponent then (steps, stepsPerUnit * Nat.pow 10 exponent.toNat)
    else (steps * Nat.pow 10 (-exponent).toNat, stepsPerUnit)
  let below := numerator / denominator
  let nearer := if 2 * (numerator % denominator) < denominator then below else below + 1
  let farther := if nearer = below then below + 1 else below
  if (Decimal.mk nearer exponent).reads magnitude then some ⟨nearer, exponent⟩
  else if (Decimal.mk farther exponent).reads magnitude then some ⟨farther, exponent⟩
  else none

private def search (magnitude : Nat) (exponent : Int) : Nat → Decimal
  | 0 => (onGrid? magnitude exponent).getD ⟨0, 0⟩
  | more + 1 => (onGrid? magnitude exponent).getD (search magnitude (exponent - 1) more)

/-- The shortest decimal of a finite magnitude. Nineteen grids reach seventeen digits from
one power above the leading digit. -/
def shortest (magnitude : Nat) : Decimal :=
  if magnitude = 0 then ⟨0, 0⟩
  else search magnitude (leadingPower (stepsOfMagnitude magnitude) + 1) 19

def text (value : Double) : String :=
  if value.isNaN then "NaN"
  else
    let size := if value.isInfinite then "inf" else (shortest value.magnitude).plain
    if value.negative then "-" ++ size else size

def fixed (places : Nat) (value : Double) : String :=
  if value.isNaN then "NaN"
  else
    let size :=
      if value.isInfinite then "inf"
      else
        let scaled := roundHalfEven (stepsOfMagnitude value.magnitude * Nat.pow 10 places) stepsPerUnit
        let fraction := (Nat.repr (scaled % Nat.pow 10 places)).toList
        if places = 0 then Nat.repr scaled
        else Nat.repr (scaled / Nat.pow 10 places) ++ "." ++
          String.ofList (List.replicate (places - fraction.length) '0' ++ fraction)
    if value.negative then "-" ++ size else size

end Double
end TenantQueue
