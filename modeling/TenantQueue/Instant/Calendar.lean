/-! The proleptic Gregorian calendar. Years are counted from the first of March, so
that the leap day is the last of its year, and days from the first of January 1970. -/
namespace TenantQueue.Calendar

structure Date where
  year : Int
  month : Nat
  day : Nat
  deriving DecidableEq, Inhabited

def isLeap (year : Int) : Bool :=
  year % 4 == 0 && (year % 100 != 0 || year % 400 == 0)

def daysInMonth (year : Int) (month : Nat) : Nat :=
  if month = 2 then if isLeap year then 29 else 28
  else if month = 4 ∨ month = 6 ∨ month = 9 ∨ month = 11 then 30
  else 31

def Date.IsValid (date : Date) : Prop :=
  1 ≤ date.month ∧ date.month ≤ 12 ∧ 1 ≤ date.day ∧ date.day ≤ daysInMonth date.year date.month

instance (date : Date) : Decidable date.IsValid := by
  unfold Date.IsValid; infer_instance

/-- The number of days from the first of January 1970. -/
def dayNumber (date : Date) : Int :=
  let year := if date.month ≤ 2 then date.year - 1 else date.year
  let month : Int := if date.month ≤ 2 then date.month + 9 else date.month - 3
  let ofYear := 365 * (year % 400) + year % 400 / 4 - year % 400 / 100
  year / 400 * 146097 + ofYear + (153 * month + 2) / 5 + date.day - 1 - 719468

/-- The date of a day number: cycles of four hundred, a hundred, four years and one, each count
but the first kept from running over on the leap day that ends it. -/
def dateOfDay (day : Int) : Date :=
  let shifted := day + 719468
  let inCycle := shifted % 146097
  let century := min (inCycle / 36524) 3
  let inCentury := inCycle - century * 36524
  let inFour := inCentury % 1461
  let single := min (inFour / 365) 3
  let ofYear := inFour - single * 365
  let year := shifted / 146097 * 400 + century * 100 + inCentury / 1461 * 4 + single
  let month := (5 * ofYear + 2) / 153
  let ofMonth := ofYear - (153 * month + 2) / 5 + 1
  { year := if month < 10 then year else year + 1
    month := (if month < 10 then month + 3 else month - 9).toNat
    day := ofMonth.toNat }

end TenantQueue.Calendar
