/-!
# Days of the Gregorian calendar

`dayNumber` counts the days from 1 January 1970 in the proleptic Gregorian calendar, and
`Date.ofDayNumber` finds the date of a day. A date is valid if its month and day exist and its year
is one of those that an `Instant` can fall into.
-/

namespace TestEngine.Calendar

structure Date where
  year : Int
  month : Nat
  day : Nat
  deriving DecidableEq

/-- Every fourth year is a leap year, of the full centuries only every fourth. -/
def isLeapYear (year : Int) : Bool :=
  year % 4 == 0 && (year % 100 != 0 || year % 400 == 0)

/-- The number of days before 1 January of a year, counted from 1 January of year 1. -/
def daysBeforeYear (year : Int) : Int :=
  let before := year - 1
  365 * before + before / 4 - before / 100 + before / 400

/-- The number of days of a year before the first of a month. -/
def daysBeforeMonth (year : Int) (month : Nat) : Nat :=
  let leapDay := if isLeapYear year then 1 else 0
  match month with
  | 0 | 1 => 0
  | 2 => 31
  | 3 => 59 + leapDay
  | 4 => 90 + leapDay
  | 5 => 120 + leapDay
  | 6 => 151 + leapDay
  | 7 => 181 + leapDay
  | 8 => 212 + leapDay
  | 9 => 243 + leapDay
  | 10 => 273 + leapDay
  | 11 => 304 + leapDay
  | 12 => 334 + leapDay
  | _ => 365 + leapDay

def daysInMonth (year : Int) (month : Nat) : Nat :=
  daysBeforeMonth year (month + 1) - daysBeforeMonth year month

def firstYear : Int := -262143

def lastYear : Int := 262142

def Date.isValid (date : Date) : Bool :=
  firstYear ≤ date.year && date.year ≤ lastYear && 1 ≤ date.month && date.month ≤ 12 &&
    1 ≤ date.day && date.day ≤ daysInMonth date.year date.month

/-- The number of days from 1 January of year 1 to 1 January 1970. -/
def epochOffset : Int := 719162

def Date.dayNumber (date : Date) : Int :=
  daysBeforeYear date.year + daysBeforeMonth date.year date.month + (date.day - 1) - epochOffset

/-- The year that a day falls into, the day counted from 1 January of year 1. Four centuries have
146097 days; in them the last day of a fourth century, and of a fourth year, is the extra one. -/
def yearOfDay (day : Int) : Int :=
  let cycles := day / 146097
  let inCycle := day % 146097
  let centuries := min (inCycle / 36524) 3
  let inCentury := inCycle - 36524 * centuries
  let quadriennia := inCentury / 1461
  let inQuadriennium := inCentury % 1461
  let years := min (inQuadriennium / 365) 3
  400 * cycles + 100 * centuries + 4 * quadriennia + years + 1

/-- The last month of those up to `month` that starts no later than a day of the year. -/
def monthOfDay (year : Int) (dayOfYear : Nat) : (month : Nat) → Nat
  | 0 => 1
  | month + 1 =>
    if daysBeforeMonth year (month + 1) ≤ dayOfYear then month + 1
    else monthOfDay year dayOfYear month

def Date.ofDayNumber (number : Int) : Date :=
  let day := number + epochOffset
  let year := yearOfDay day
  let dayOfYear := (day - daysBeforeYear year).toNat
  let month := monthOfDay year dayOfYear 12
  ⟨year, month, dayOfYear - daysBeforeMonth year month + 1⟩

end TestEngine.Calendar
