import Mathlib.Algebra.Group.Int.Defs
import Mathlib.Order.Monotone.Basic
import TestEngine.Calendar.Day
import TestEngine.Calendar.Instant

/-!
# Days and dates

Every day has one date. The date of a day is found from its number: first the year, by the cycles of
the leap years, then the month, by where the months of the year begin.

Dates are ordered by their year, then by their month and then by their day, and this is the order in
which the days of the calendar are counted. So a valid date is the only one with its number, and the
midnight that begins it falls on no other date; and midnights compare, in milliseconds, as their
dates do.
-/

namespace TestEngine.Calendar

/-! ### Years -/

theorem isLeapYear_iff {year : Int} :
    isLeapYear year ↔ year % 4 = 0 ∧ (year % 100 ≠ 0 ∨ year % 400 = 0) := by
  simp only [isLeapYear, Bool.and_eq_true, Bool.or_eq_true, beq_iff_eq, bne_iff_ne]

/-- The number of days of a year. -/
def daysInYear (year : Int) : Nat := if isLeapYear year then 366 else 365

theorem daysBeforeMonth_of_december (year : Int) : daysBeforeMonth year 13 = daysInYear year := by
  simp only [daysBeforeMonth, daysInYear]
  split <;> rfl

theorem daysBeforeYear_succ (year : Int) :
    daysBeforeYear (year + 1) = daysBeforeYear year + daysInYear year := by
  rw [daysInYear]
  split
  · rename_i isLeap
    rw [isLeapYear_iff] at isLeap
    simp only [daysBeforeYear]
    omega
  · rename_i isCommon
    rw [isLeapYear_iff] at isCommon
    simp only [daysBeforeYear]
    omega

/-- A year after so many cycles of four centuries, centuries, cycles of four years and years begins
after the days of all of them. -/
theorem daysBeforeYear_ofParts (cycles : Int) {centuries quadriennia years : Int}
    (centuries_nonneg : 0 ≤ centuries) (centuries_le : centuries ≤ 3)
    (quadriennia_nonneg : 0 ≤ quadriennia) (quadriennia_le : quadriennia ≤ 24)
    (years_nonneg : 0 ≤ years) (years_le : years ≤ 3) :
    daysBeforeYear (400 * cycles + 100 * centuries + 4 * quadriennia + years + 1) =
      146097 * cycles + 36524 * centuries + 1461 * quadriennia + 365 * years := by
  have inQuadriennium : years = 0 ∨ years = 1 ∨ years = 2 ∨ years = 3 := by omega
  simp only [daysBeforeYear]
  rcases inQuadriennium with rfl | rfl | rfl | rfl <;> omega

/-- The year of a day begins no later than the day, and the next one begins after it. -/
theorem yearOfDay_spec (day : Int) :
    daysBeforeYear (yearOfDay day) ≤ day ∧ day < daysBeforeYear (yearOfDay day + 1) := by
  simp only [yearOfDay]
  generalize isCentury : min (day % 146097 / 36524) 3 = centuries
  generalize isQuadriennium : (day % 146097 - 36524 * centuries) / 1461 = quadriennia
  generalize isYear : min ((day % 146097 - 36524 * centuries) % 1461 / 365) 3 = years
  have inCycle : 0 ≤ centuries ∧ centuries ≤ 3 := by omega
  have inCentury : 0 ≤ quadriennia ∧ quadriennia ≤ 24 := by omega
  have inQuadriennium : 0 ≤ years ∧ years ≤ 3 := by omega
  have begins := daysBeforeYear_ofParts (day / 146097) inCycle.1 inCycle.2 inCentury.1 inCentury.2
    inQuadriennium.1 inQuadriennium.2
  refine ⟨by omega, ?_⟩
  rw [daysBeforeYear_succ, begins, daysInYear]
  split
  · omega
  · rename_i isCommon
    rw [isLeapYear_iff] at isCommon
    -- The last of four years has a leap day unless it ends a century that is not a fourth one.
    have endsCentury : years = 3 → quadriennia = 24 ∧ centuries < 3 := by omega
    omega

/-! ### Months -/

/-- The month of a day of the year is the last one that begins no later than the day. -/
theorem monthOfDay_spec (year : Int) (dayOfYear : Nat) (months : Nat) :
    let month := monthOfDay year dayOfYear months
    1 ≤ month ∧ month ≤ max months 1 ∧ daysBeforeMonth year month ≤ dayOfYear ∧
      ∀ later, month < later → later ≤ months → dayOfYear < daysBeforeMonth year later := by
  induction months with
  | zero =>
      refine ⟨Nat.le_refl 1, Nat.le_refl 1, Nat.zero_le _, ?_⟩
      intro later isLater isMonth
      simp only [monthOfDay] at isLater
      omega
  | succ months ih =>
      rw [monthOfDay]
      split
      · rename_i begun
        refine ⟨by omega, by omega, begun, ?_⟩
        intro later isLater isMonth
        omega
      · rename_i notBegun
        rcases ih with ⟨pos, le, begun, others⟩
        refine ⟨pos, by omega, begun, ?_⟩
        intro later isLater isMonth
        rcases Nat.lt_or_ge months later with isLast | isEarlier
        · obtain rfl : later = months + 1 := by omega
          omega
        · exact others later isLater isEarlier

theorem daysInMonth_le (year : Int) : (month : Nat) → daysInMonth year month ≤ 31
  | 0 | 1 => by simp [daysInMonth, daysBeforeMonth]
  | 2 | 3 | 4 | 5 | 6 | 7 | 8 | 9 | 10 | 11 | 12 => by
      simp only [daysInMonth, daysBeforeMonth]
      split <;> omega
  | month + 13 => by simp [daysInMonth, daysBeforeMonth]

/-! ### Dates -/

namespace Date

/-- The month of a day of a year, and its place in the month. -/
theorem ofDayNumber_spec (number : Int) :
    let date := ofDayNumber number
    ∃ dayOfYear : Nat, number + epochOffset = daysBeforeYear date.year + dayOfYear ∧
      dayOfYear < daysInYear date.year ∧ date.month = monthOfDay date.year dayOfYear 12 ∧
        date.day = dayOfYear - daysBeforeMonth date.year date.month + 1 := by
  rcases yearOfDay_spec (number + epochOffset) with ⟨begun, notOver⟩
  rw [daysBeforeYear_succ] at notOver
  refine ⟨(number + epochOffset - daysBeforeYear (yearOfDay (number + epochOffset))).toNat, ?_, ?_,
    rfl, rfl⟩
  · simp only [ofDayNumber]
    omega
  · simp only [ofDayNumber]
    omega

/-- The day of the date of a day is the day. -/
@[simp]
theorem dayNumber_ofDayNumber (number : Int) : (ofDayNumber number).dayNumber = number := by
  rcases ofDayNumber_spec number with ⟨dayOfYear, isDay, -, isMonth, day⟩
  rcases monthOfDay_spec (ofDayNumber number).year dayOfYear 12 with ⟨-, -, begun, -⟩
  rw [← isMonth] at begun
  rw [dayNumber, day]
  omega

theorem isValid_iff (date : Date) :
    date.isValid ↔ (firstYear ≤ date.year ∧ date.year ≤ lastYear) ∧
      (1 ≤ date.month ∧ date.month ≤ 12) ∧
        1 ≤ date.day ∧ date.day ≤ daysInMonth date.year date.month := by
  simp only [isValid, Bool.and_eq_true, decide_eq_true_eq, and_assoc]

/-- The date of a day is valid if its year is. -/
theorem isValid_ofDayNumber {number : Int} (first : firstYear ≤ (ofDayNumber number).year)
    (last : (ofDayNumber number).year ≤ lastYear) : (ofDayNumber number).isValid := by
  rcases ofDayNumber_spec number with ⟨dayOfYear, -, inYear, isMonth, day⟩
  rcases monthOfDay_spec (ofDayNumber number).year dayOfYear 12 with ⟨pos, le, begun, others⟩
  rw [← isMonth] at pos le begun others
  have notOver : dayOfYear < daysBeforeMonth (ofDayNumber number).year
      ((ofDayNumber number).month + 1) := by
    rcases Nat.lt_or_ge (ofDayNumber number).month 12 with isEarlier | isLast
    · exact others _ (Nat.lt_succ_self _) isEarlier
    · have isDecember : (ofDayNumber number).month = 12 := by omega
      rw [isDecember, daysBeforeMonth_of_december]
      exact inYear
  rw [isValid_iff, day, daysInMonth]
  refine ⟨⟨first, last⟩, ⟨pos, by omega⟩, by omega, by omega⟩

end Date

/-! ## The order of dates -/

/-! ### Years and months in a row -/

theorem daysBeforeYear_le {first second : Int} (le : first ≤ second) :
    daysBeforeYear first ≤ daysBeforeYear second := by
  simp only [daysBeforeYear]
  omega

/-- A year is over when a later one begins. -/
theorem daysBeforeYear_add_le {first second : Int} (earlier : first < second) :
    daysBeforeYear first + daysInYear first ≤ daysBeforeYear second := by
  rw [← daysBeforeYear_succ]
  exact daysBeforeYear_le earlier

theorem daysBeforeMonth_le_succ (year : Int) :
    (month : Nat) → daysBeforeMonth year month ≤ daysBeforeMonth year (month + 1)
  | 0 => Nat.le_refl 0
  | 1 => Nat.zero_le 31
  | 2 | 3 | 4 | 5 | 6 | 7 | 8 | 9 | 10 | 11 | 12 => by
      simp only [daysBeforeMonth]
      omega
  | month + 13 => by simp [daysBeforeMonth]

/-- A month is over when a later one begins. -/
theorem daysBeforeMonth_add_le (year : Int) {first second : Nat} (earlier : first < second) :
    daysBeforeMonth year first + daysInMonth year first ≤ daysBeforeMonth year second := by
  have next := daysBeforeMonth_le_succ year first
  have later : daysBeforeMonth year (first + 1) ≤ daysBeforeMonth year second :=
    monotone_nat_of_le_succ (daysBeforeMonth_le_succ year) earlier
  rw [daysInMonth]
  omega

namespace Date

/-- How two dates follow each other: as their years do, or else their months, or else their days. -/
def order : Date → Date → Ordering :=
  compareLex (compareOn year) (compareLex (compareOn month) (compareOn day))

variable {first second date : Date}

theorem order_eq_lt_iff : first.order second = .lt ↔
    first.year < second.year ∨ first.year = second.year ∧
      (first.month < second.month ∨ first.month = second.month ∧ first.day < second.day) := by
  simp only [order, compareLex, compareOn, Ordering.then_eq_lt, Int.compare_eq_lt,
    Int.compare_eq_eq, Nat.compare_eq_lt, Nat.compare_eq_eq]

theorem order_eq_eq_iff : first.order second = .eq ↔ first = second := by
  simp only [order, compareLex, compareOn, Ordering.then_eq_eq, Int.compare_eq_eq,
    Nat.compare_eq_eq]
  cases first
  cases second
  simp only [mk.injEq]

theorem order_eq_gt_iff : first.order second = .gt ↔ second.order first = .lt := by
  rw [order_eq_lt_iff]
  simp only [order, compareLex, compareOn, Ordering.then_eq_gt, Int.compare_eq_gt,
    Int.compare_eq_eq, Nat.compare_eq_gt, Nat.compare_eq_eq]
  omega

/-! ### Numbers of days -/

/-- A valid date lies in its year. -/
theorem dayNumber_bounds (isValid : date.isValid) :
    daysBeforeYear date.year ≤ date.dayNumber + epochOffset ∧
      date.dayNumber + epochOffset < daysBeforeYear date.year + daysInYear date.year := by
  rcases (isValid_iff date).mp isValid with ⟨-, ⟨-, monthLe⟩, dayPos, dayLe⟩
  have inYear : daysBeforeMonth date.year date.month + daysInMonth date.year date.month ≤
      daysInYear date.year := by
    rw [← daysBeforeMonth_of_december]
    exact daysBeforeMonth_add_le date.year (by omega)
  simp only [dayNumber]
  omega

/-- Earlier dates have smaller numbers. -/
theorem dayNumber_lt (isValid : first.isValid) (isValidSecond : second.isValid)
    (earlier : first.order second = .lt) : first.dayNumber < second.dayNumber := by
  rcases order_eq_lt_iff.mp earlier with years | ⟨sameYear, months | ⟨sameMonth, days⟩⟩
  · have notOver := (dayNumber_bounds isValid).2
    have begun := (dayNumber_bounds isValidSecond).1
    have ended := daysBeforeYear_add_le years
    omega
  · have dayLe := ((isValid_iff first).mp isValid).2.2.2
    have dayPos := ((isValid_iff second).mp isValidSecond).2.2.1
    have ended := daysBeforeMonth_add_le first.year months
    simp only [dayNumber, ← sameYear]
    omega
  · simp only [dayNumber, ← sameYear, ← sameMonth]
    omega

/-- The days of the calendar are counted in the order of their dates. -/
theorem compare_dayNumber (isValid : first.isValid) (isValidSecond : second.isValid) :
    compare first.dayNumber second.dayNumber = first.order second := by
  cases isOrder : first.order second with
  | lt => exact Int.compare_eq_lt.mpr (dayNumber_lt isValid isValidSecond isOrder)
  | eq => rw [order_eq_eq_iff.mp isOrder, Int.compare_eq_eq]
  | gt =>
      rw [Int.compare_eq_gt]
      exact dayNumber_lt isValidSecond isValid (order_eq_gt_iff.mp isOrder)

theorem eq_of_dayNumber_eq (isValid : first.isValid) (isValidSecond : second.isValid)
    (same : first.dayNumber = second.dayNumber) : first = second := by
  rw [← order_eq_eq_iff, ← compare_dayNumber isValid isValidSecond, Int.compare_eq_eq]
  exact same

/-- A valid date is the date of its day. -/
theorem ofDayNumber_dayNumber (isValid : date.isValid) : ofDayNumber date.dayNumber = date := by
  rcases dayNumber_bounds isValid with ⟨begun, notOver⟩
  rcases ofDayNumber_spec date.dayNumber with ⟨dayOfYear, isDay, inYear, -⟩
  have sameYear : (ofDayNumber date.dayNumber).year = date.year := by
    rcases Int.lt_trichotomy (ofDayNumber date.dayNumber).year date.year with before | same | after
    · have ended := daysBeforeYear_add_le before
      omega
    · exact same
    · have ended := daysBeforeYear_add_le after
      omega
  have years := ((isValid_iff date).mp isValid).1
  apply eq_of_dayNumber_eq _ isValid (dayNumber_ofDayNumber date.dayNumber)
  exact isValid_ofDayNumber (sameYear ▸ years.1) (sameYear ▸ years.2)

/-- The milliseconds of the midnight that begins a valid date are a 64-bit number. -/
theorem epochMillis_bounds (isValid : date.isValid) :
    -2 ^ 63 ≤ (Instant.ofDate date).epochMillis ∧ (Instant.ofDate date).epochMillis < 2 ^ 63 := by
  have years := ((isValid_iff date).mp isValid).1
  have bounds := dayNumber_bounds isValid
  have yearLe : daysInYear date.year ≤ 366 := by
    rw [daysInYear]
    split <;> omega
  simp only [firstYear, lastYear, daysBeforeYear, epochOffset, Instant.epochMillis, Instant.ofDate,
    secondsPerDay] at *
  omega

/-- Midnights follow each other as their dates do. -/
theorem compare_epochMillis (isValid : first.isValid) (isValidSecond : second.isValid) :
    compare (Instant.ofDate first).epochMillis (Instant.ofDate second).epochMillis =
      first.order second := by
  have counted := compare_dayNumber isValid isValidSecond
  simp only [Instant.epochMillis, Instant.ofDate, secondsPerDay]
  cases isOrder : first.order second with
  | lt =>
      rw [isOrder, Int.compare_eq_lt] at counted
      rw [Int.compare_eq_lt]
      omega
  | eq =>
      rw [isOrder, Int.compare_eq_eq] at counted
      rw [counted, Int.compare_eq_eq]
  | gt =>
      rw [isOrder, Int.compare_eq_gt] at counted
      rw [Int.compare_eq_gt]
      omega

end Date

namespace Instant

theorem dateTime_eq (instant : Instant) :
    instant.date.dayNumber * secondsPerDay + instant.secondOfDay = instant.second := by
  simp only [date, Date.dayNumber_ofDayNumber, dayNumber, secondOfDay, secondsPerDay]
  omega

theorem isInRange_iff {instant : Instant} :
    instant.isInRange ↔ firstYear ≤ instant.date.year ∧ instant.date.year ≤ lastYear := by
  simp only [isInRange, Bool.and_eq_true, decide_eq_true_eq]

/-- The midnight that begins a valid date falls on that date. -/
theorem date_ofDate {date : Date} (isValid : date.isValid) : (ofDate date).date = date := by
  have sameDay : (ofDate date).dayNumber = date.dayNumber := by
    simp only [dayNumber, ofDate, secondsPerDay]
    omega
  rw [Instant.date, sameDay, Date.ofDayNumber_dayNumber isValid]

end Instant

end TestEngine.Calendar
