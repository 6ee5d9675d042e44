import TenantQueue.Instant.Calendar

/-! The date of a day is a date of the calendar, and its day number is that day. -/
namespace TenantQueue.Calendar

/-- How a day stands in its cycle of four hundred years: the century, the group of four years, the single
year in it and the day of that year, which begins in March. -/
structure Position (day cycle century four single ofYear : Int) : Prop where
  sum : day + 719468 =
    146097 * cycle + 36524 * century + 1461 * four + 365 * single + ofYear
  century_bounds : 0 ≤ century ∧ century ≤ 3
  four_bounds : 0 ≤ four ∧ four ≤ 24
  single_bounds : 0 ≤ single ∧ single ≤ 3
  ofYear_bounds : 0 ≤ ofYear ∧ ofYear ≤ 365
  /-- The last day of a year of 366 days ends a group of four years, and one that ends a century ends
  the cycle. -/
  leap : ofYear = 365 → single = 3 ∧ (four = 24 → century = 3)

theorem dateOfDay_position (day : Int) :
    ∃ cycle century four single ofYear, Position day cycle century four single ofYear ∧
      dateOfDay day =
        let year := cycle * 400 + century * 100 + four * 4 + single
        let month := (5 * ofYear + 2) / 153
        { year := if month < 10 then year else year + 1
          month := (if month < 10 then month + 3 else month - 9).toNat
          day := (ofYear - (153 * month + 2) / 5 + 1).toNat } := by
  refine ⟨_, _, _, _, _, ?_, rfl⟩
  constructor <;> omega

theorem isLeap_iff (year : Int) :
    isLeap year = true ↔ year % 4 = 0 ∧ (year % 100 ≠ 0 ∨ year % 400 = 0) := by
  simp [isLeap]

/-- In which month a day of the year lies, counted from March, and which day of that month it is. -/
theorem dayOfMonth_le (ofYear month : Int) (days : 0 ≤ ofYear ∧ ofYear ≤ 365)
    (ofMonth : month = (5 * ofYear + 2) / 153) :
    0 ≤ month ∧ month ≤ 11 ∧ 0 ≤ ofYear - (153 * month + 2) / 5 ∧
      ofYear - (153 * month + 2) / 5 ≤ 30 ∧
      (month = 1 ∨ month = 3 ∨ month = 6 ∨ month = 8 → ofYear - (153 * month + 2) / 5 ≤ 29) ∧
      (month = 11 → ofYear - (153 * month + 2) / 5 = ofYear - 337) := by
  omega

theorem daysInMonth_le (year : Int) (month : Nat) : daysInMonth year month ≤ 31 := by
  unfold daysInMonth
  split
  · split <;> decide
  · split <;> decide

theorem dateOfDay_isValid (day : Int) : (dateOfDay day).IsValid := by
  obtain ⟨cycle, century, four, single, ofYear, position, date⟩ := dateOfDay_position day
  have centuries := position.century_bounds
  have fours := position.four_bounds
  have singles := position.single_bounds
  have days := position.ofYear_bounds
  have leap := position.leap
  dsimp only at date
  generalize ofMonth : (5 * ofYear + 2) / 153 = month at date
  have inMonth := dayOfMonth_le ofYear month days ofMonth.symm
  generalize ofYear - (153 * month + 2) / 5 = place at date inMonth
  rw [date]
  refine ⟨by dsimp only; omega, by dsimp only; omega, by dsimp only; omega, ?_⟩
  dsimp only
  rcases Int.lt_or_le month 10 with early | late
  · -- From March to December no month depends on the year.
    rw [if_pos early, if_pos early, daysInMonth, if_neg (by omega)]
    split <;> omega
  · rw [if_neg (Int.not_lt.mpr late), if_neg (Int.not_lt.mpr late), daysInMonth]
    by_cases february : month = 11
    · rw [if_pos (by omega)]
      by_cases last : ofYear = 365
      · obtain ⟨ends, ofCentury⟩ := leap last
        rw [if_pos ((isLeap_iff _).mpr (by omega))]
        omega
      · split <;> omega
    · rw [if_neg (by omega)]
      split <;> omega

theorem dayNumber_dateOfDay (day : Int) : dayNumber (dateOfDay day) = day := by
  obtain ⟨cycle, century, four, single, ofYear, position, date⟩ := dateOfDay_position day
  have sum := position.sum
  have centuries := position.century_bounds
  have fours := position.four_bounds
  have singles := position.single_bounds
  have days := position.ofYear_bounds
  dsimp only at date
  generalize ofMonth : (5 * ofYear + 2) / 153 = month at date
  have inMonth := dayOfMonth_le ofYear month days ofMonth.symm
  have year : (cycle * 400 + century * 100 + four * 4 + single) / 400 = cycle ∧
      (cycle * 400 + century * 100 + four * 4 + single) % 400 = century * 100 + four * 4 + single := by
    omega
  have inCycle : (century * 100 + four * 4 + single) / 4 = century * 25 + four ∧
      (century * 100 + four * 4 + single) / 100 = century := by
    omega
  rw [date]
  simp only [dayNumber]
  by_cases early : month < 10
  · have number : ((month + 3).toNat : Int) = month + 3 := by omega
    have late : ¬(month + 3).toNat ≤ 2 := by omega
    simp only [if_pos early, if_neg late, number, year, inCycle]
    omega
  · have number : ((month - 9).toNat : Int) = month - 9 := by omega
    have late : (month - 9).toNat ≤ 2 := by omega
    simp only [if_neg early, if_pos late, number, Int.add_sub_cancel, year, inCycle]
    omega

/-- Within the calendar a day lies in a year that is read back. -/
theorem dateOfDay_year_bounds (day : Int) (earliest : -96465292 ≤ day) (latest : day ≤ 95026236) :
    -262143 ≤ (dateOfDay day).year ∧ (dateOfDay day).year ≤ 262142 := by
  obtain ⟨cycle, century, four, single, ofYear, position, date⟩ := dateOfDay_position day
  have sum := position.sum
  have centuries := position.century_bounds
  have fours := position.four_bounds
  have singles := position.single_bounds
  have days := position.ofYear_bounds
  -- The first and the last day lie in known cycles.
  have cycles : -656 ≤ cycle ∧ cycle ≤ 655 := by omega
  have months : (5 * ofYear + 2) / 153 < 10 ↔ ofYear ≤ 305 := by omega
  have below : cycle = 655 → century * 100 + four * 4 + single ≤ 142 := by
    rintro rfl
    omega
  have above : cycle = -656 → 256 ≤ century * 100 + four * 4 + single := by
    rintro rfl
    omega
  rw [date]
  dsimp only
  split <;> omega

end TenantQueue.Calendar
