import TenantQueue.Instant.Basic

/-! The text of an instant: date and time of day, the fraction in three, six or nine
digits when there is one, and `Z`. -/
namespace TenantQueue.Instant
open Calendar

def paddedDigits (width value : Nat) : List Char :=
  let digits := Nat.toDigits 10 value
  List.replicate (width - digits.length) '0' ++ digits

/-- Four digits from 0 to 9999, otherwise a sign and at least four digits. -/
def yearText (year : Int) : List Char :=
  if 0 ≤ year ∧ year ≤ 9999 then paddedDigits 4 year.toNat
  else (if year < 0 then '-' else '+') :: paddedDigits 4 year.natAbs

/-- The fewest groups of three digits that lose nothing. -/
def fractionText (nanos : Nat) : List Char :=
  if nanos = 0 then []
  else if nanos % 1000000 = 0 then '.' :: paddedDigits 3 (nanos / 1000000)
  else if nanos % 1000 = 0 then '.' :: paddedDigits 6 (nanos / 1000)
  else '.' :: paddedDigits 9 nanos

def date (instant : Instant) : Date := dateOfDay (instant.seconds / 86400)

def characters (instant : Instant) : List Char :=
  let date := instant.date
  let ofDay := (instant.seconds % 86400).toNat
  let leap := 1000000000 ≤ instant.nanos
  yearText date.year ++ '-' :: paddedDigits 2 date.month ++ '-' :: paddedDigits 2 date.day ++
    'T' :: paddedDigits 2 (ofDay / 3600) ++ ':' :: paddedDigits 2 (ofDay / 60 % 60) ++
    ':' :: paddedDigits 2 (ofDay % 60 + if leap then 1 else 0) ++
    fractionText (if leap then instant.nanos - 1000000000 else instant.nanos) ++ ['Z']

def text (instant : Instant) : String := String.ofList instant.characters

end TenantQueue.Instant
