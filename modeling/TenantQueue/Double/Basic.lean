/-! Double-precision numbers by their bits. A finite double is a whole number of
steps of two to the power -1074, so the arithmetic is exact integer arithmetic
followed by one rounding to the nearest double, a half to the even neighbour. The sign is
the highest of 64 bits, and the magnitudes from one power of two to the next are
0x10000000000000 in number. -/
namespace TenantQueue

structure Double where
  bits : UInt64
  deriving DecidableEq, Inhabited

namespace Double

def stepsPerUnit : Nat := Nat.pow 2 1074

/-- The bits below the sign. -/
def magnitude (value : Double) : Nat := value.bits.toNat % 0x8000000000000000

def negative (value : Double) : Bool := 0x8000000000000000 ≤ value.bits.toNat

/-- The magnitude of an infinity. Larger ones are no numbers. -/
def infinityMagnitude : Nat := 2047 * 0x10000000000000

def isNaN (value : Double) : Bool := infinityMagnitude < value.magnitude

def isInfinite (value : Double) : Bool := value.magnitude == infinityMagnitude

def isFinite (value : Double) : Bool := value.magnitude < infinityMagnitude

def isZero (value : Double) : Bool := value.magnitude == 0

def ofMagnitude (negative : Bool) (magnitude : Nat) : Double :=
  ⟨UInt64.ofNat (if negative then 0x8000000000000000 + magnitude else magnitude)⟩

def zero : Double := ofMagnitude false 0

def infinity (negative : Bool) : Double := ofMagnitude negative infinityMagnitude

def nan : Double := ⟨0x7ff8000000000000⟩

/-- How many steps of two to the power -1074 a finite magnitude is. -/
def stepsOfMagnitude (magnitude : Nat) : Nat :=
  let exponent := magnitude / 0x10000000000000
  let fraction := magnitude % 0x10000000000000
  if exponent = 0 then fraction else (0x10000000000000 + fraction) * Nat.pow 2 (exponent - 1)

def steps (value : Double) : Int :=
  let size : Int := stepsOfMagnitude value.magnitude
  if value.negative then -size else size

def roundHalfEven (numerator denominator : Nat) : Nat :=
  let quotient := numerator / denominator
  let remainder := numerator % denominator
  if 2 * remainder < denominator then quotient
  else if denominator < 2 * remainder then quotient + 1
  else quotient + quotient % 2

/-- The magnitude nearest to `numerator / denominator` steps. Rounding up to a power of
two carries into the exponent by itself. -/
def nearestMagnitude (numerator denominator : Nat) : Nat :=
  let shift := (numerator / denominator).log2 - 52
  min infinityMagnitude (shift * 0x10000000000000 + roundHalfEven numerator (denominator * Nat.pow 2 shift))

def ofSteps (negative : Bool) (numerator denominator : Nat) : Double :=
  ofMagnitude negative (nearestMagnitude numerator denominator)

def ofRatio (negative : Bool) (numerator denominator : Nat) : Double :=
  ofSteps negative (numerator * stepsPerUnit) denominator

def ofInt (value : Int) : Double := ofRatio (value < 0) value.natAbs 1

def ofNat (value : Nat) : Double := ofRatio false value 1

/-- A sum of zero is negative only for two negative zeros. -/
def add (first second : Double) : Double :=
  if first.isNaN || second.isNaN then nan
  else if first.isInfinite then
    if second.isInfinite && first.negative != second.negative then nan else first
  else if second.isInfinite then second
  else
    let sum := first.steps + second.steps
    ofSteps (if sum = 0 then first.negative && second.negative else sum < 0) sum.natAbs 1

def divNat (value : Double) (divisor : Nat) : Double :=
  if value.isFinite then ofSteps value.negative (stepsOfMagnitude value.magnitude) divisor
  else value

/-- Places the doubles in their total order: negative numbers before positive ones, -0 before
+0, and what is no number at the two ends. -/
def rank (value : Double) : Nat :=
  if value.negative then 0x8000000000000000 - 1 - value.magnitude else 0x8000000000000000 + value.magnitude

instance : Ord Double := ⟨compareOn rank⟩

/-- The numeric comparison: the two zeros are equal, and what is no number compares with nothing. -/
def le (first second : Double) : Bool :=
  !first.isNaN && !second.isNaN && (first.rank ≤ second.rank || (first.isZero && second.isZero))

/-- The whole part, kept within 64 signed bits. What is no number gives zero. -/
def truncated (value : Double) : Int :=
  if value.isNaN then 0
  else
    let whole : Int := (stepsOfMagnitude value.magnitude / stepsPerUnit : Nat)
    max (-0x8000000000000000) (min (0x8000000000000000 - 1) (if value.negative then -whole else whole))

def ofSingle (bits : UInt32) : Double :=
  let negative := 0x80000000 ≤ bits.toNat
  let exponent := bits.toNat / 0x800000 % 0x100
  let fraction := bits.toNat % 0x800000
  if exponent = 255 then if fraction = 0 then infinity negative else nan
  else if exponent = 0 then ofSteps negative (fraction * Nat.pow 2 925) 1
  else ofSteps negative ((0x800000 + fraction) * Nat.pow 2 (exponent + 924)) 1

end Double
end TenantQueue
