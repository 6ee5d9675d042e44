import TenantQueue.Double.Basic

/-! Spans of time in nanoseconds, at most the largest count of whole 64-bit seconds
and a fraction below one. -/
namespace TenantQueue

structure Duration where
  nanoseconds : Nat
  deriving DecidableEq, Inhabited

namespace Duration

/-- One nanosecond below two to the power 64 seconds. -/
def greatest : Nat := 0x10000000000000000 * 1000000000 - 1

def ofSeconds (seconds : Nat) : Duration := ⟨seconds * 1000000000⟩

def ofMilliseconds (milliseconds : Nat) : Duration := ⟨milliseconds * 1000000⟩

def wholeSeconds (span : Duration) : Nat := span.nanoseconds / 1000000000

def fraction (span : Duration) : Nat := span.nanoseconds % 1000000000

def isZero (span : Duration) : Bool := span.nanoseconds == 0

instance : LT Duration := ⟨fun first second => first.nanoseconds < second.nanoseconds⟩

instance (first second : Duration) : Decidable (first < second) :=
  inferInstanceAs (Decidable (first.nanoseconds < second.nanoseconds))

def times? (span : Duration) (factor : Nat) : Option Duration :=
  if span.nanoseconds * factor ≤ greatest then some ⟨span.nanoseconds * factor⟩ else none

def min (first second : Duration) : Duration := ⟨Nat.min first.nanoseconds second.nanoseconds⟩

/-- The whole seconds and the fraction, each as the nearest double, added up. -/
def seconds (span : Duration) : Double :=
  (Double.ofNat span.wholeSeconds).add ((Double.ofNat span.fraction).divNat 1000000000)

def milliseconds (span : Duration) : Nat := (span.nanoseconds + 999999) / 1000000

private def inUnit (nanoseconds places : Nat) (unit : String) : String :=
  let size := Nat.pow 10 places
  let fraction := Nat.repr (nanoseconds % size)
  let padded := List.replicate (places - fraction.length) '0' ++ fraction.toList
  let shown := (padded.reverse.dropWhile (· == '0')).reverse
  if places = 0 || shown.isEmpty then Nat.repr (nanoseconds / size) ++ unit
  else Nat.repr (nanoseconds / size) ++ "." ++ String.ofList shown ++ unit

/-- In the largest of seconds, milliseconds, microseconds and nanoseconds that leaves a whole part. -/
def text (span : Duration) : String :=
  let count := span.nanoseconds
  if 1000000000 ≤ count then inUnit count 9 "s"
  else if 1000000 ≤ count then inUnit count 6 "ms"
  else if 1000 ≤ count then inUnit count 3 "µs"
  else inUnit count 0 "ns"

end Duration
end TenantQueue
