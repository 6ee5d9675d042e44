import TenantQueue.Double.Basic
import TenantQueue.Duration
import TenantQueue.Instant.Calendar

/-! Instants of universal time, with nanoseconds. A fraction of a second of one
second or more lies in a leap second, which follows the last second of a minute. -/
namespace TenantQueue

structure Instant where
  seconds : Int
  nanos : Nat
  deriving DecidableEq, Inhabited

namespace Instant

def earliest : Int := -8334601228800

def latest : Int := 8210266876799

/-- Within the calendar, a leap second only at the end of a minute. -/
def IsValid (instant : Instant) : Prop :=
  earliest ≤ instant.seconds ∧ instant.seconds ≤ latest ∧ instant.nanos < 2000000000 ∧
    (1000000000 ≤ instant.nanos → instant.seconds % 60 = 59)

instance (instant : Instant) : Decidable instant.IsValid := by
  unfold IsValid; infer_instance

def microseconds (instant : Instant) : Int :=
  instant.seconds * 1000000 + (instant.nanos / 1000 : Nat)

/-- Seconds since the epoch, to the microsecond. -/
def epochSeconds (instant : Instant) : Double :=
  (Double.ofInt instant.microseconds).divNat 1000000

def longestSpan : Nat := 9223372036854775807 * 1000000

/-- The instant after a span, if the calendar holds it. A fraction that stays within a leap second
leaves the instant in it. -/
def plus? (instant : Instant) (span : Duration) : Option Instant :=
  let whole := span.wholeSeconds
  let fraction := span.fraction
  let result : Instant :=
    if 1000000000 ≤ instant.nanos then
      if 0 < whole ∨ 2000000000 ≤ instant.nanos + fraction then
        let nanos := instant.nanos - 1000000000 + fraction
        ⟨instant.seconds + whole + (nanos / 1000000000 : Nat), nanos % 1000000000⟩
      else ⟨instant.seconds, instant.nanos + fraction⟩
    else
      let nanos := instant.nanos + fraction
      ⟨instant.seconds + whole + (nanos / 1000000000 : Nat), nanos % 1000000000⟩
  if result.seconds ≤ latest then some result else none

end Instant
end TenantQueue
