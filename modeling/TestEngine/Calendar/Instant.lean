import TestEngine.Calendar.Day
import TestEngine.Text.Blank
import TestEngine.Text.Numeral

/-!
# Instants

An `Instant` is a moment of the UTC calendar with a precision of nanoseconds. A leap second is the
second before it with a billion more nanoseconds.

Two texts of instants are in use. A *date literal* `dd.MM.yyyy` denotes the midnight that begins a
day. A *timestamp* follows RFC 3339 with some freedom on reading: blanks between the parts, a blank
in place of the `T`, an offset without a colon.
-/

namespace TestEngine.Calendar

open Text

/-- A moment of the UTC calendar. -/
structure Instant where
  second : Int
  /-- Nanoseconds into the second; from a billion on they lie in the leap second that follows. -/
  nano : Nat
  deriving DecidableEq, Inhabited

/-- The number of nanoseconds of a second. -/
def nanosPerSecond : Nat := 1000000000

def secondsPerDay : Nat := 86400

namespace Instant

def ofDate (date : Date) : Instant := ⟨date.dayNumber * secondsPerDay, 0⟩

/-- The day of an instant, counted from 1 January 1970. -/
def dayNumber (instant : Instant) : Int := instant.second / secondsPerDay

def date (instant : Instant) : Date := Date.ofDayNumber instant.dayNumber

def secondOfDay (instant : Instant) : Nat := (instant.second % secondsPerDay).toNat

/-- Milliseconds since the beginning of 1970. -/
def epochMillis (instant : Instant) : Int := instant.second * 1000 + (instant.nano / 1000000 : Nat)

/-- The instant a number of milliseconds after the beginning of 1970. -/
def ofEpochMillis (millis : Int) : Instant :=
  ⟨millis / 1000, (millis % 1000).toNat * 1000000⟩

/-- The leap second that lies between two instants of one day or of two, if the earlier second of
the day of one of them is its own leap second. -/
def leapBetween (finish start : Instant) : Int :=
  if start.secondOfDay < finish.secondOfDay then
    if nanosPerSecond ≤ start.nano then 1 else 0
  else if finish.secondOfDay < start.secondOfDay then
    if nanosPerSecond ≤ finish.nano then -1 else 0
  else 0

/-- The whole milliseconds from one instant to another, rounded toward zero. -/
def millisSince (finish start : Instant) : Int :=
  let seconds := finish.second - start.second + leapBetween finish start
  Int.tdiv (seconds * nanosPerSecond + finish.nano - start.nano) 1000000

def isInRange (instant : Instant) : Bool :=
  let year := instant.date.year
  firstYear ≤ year && year ≤ lastYear

end Instant

/-! ### Parts of a text -/

/-- Splits off up to `width` digits; there has to be one. -/
def takeNumber? (width : Nat) (cs : List Char) : Option (Nat × List Char) :=
  let digits := (cs.take width).takeWhile isDigit
  if digits = [] then none else some (valueOfDigits digits, cs.drop digits.length)

/-- Splits off all digits in front; there has to be one. -/
def takeDigits? (cs : List Char) : Option (Nat × List Char) :=
  let digits := cs.takeWhile isDigit
  if digits = [] then none else some (valueOfDigits digits, cs.dropWhile isDigit)

/-- Splits off an unsigned number of up to two digits after any blanks. -/
def takeTwoDigits? (cs : List Char) : Option (Nat × List Char) := takeNumber? 2 (trimLeft cs)

/-- Splits off a year after any blanks: up to four digits, or any number of them after a sign. -/
def takeYear? (cs : List Char) : Option (Int × List Char) :=
  match trimLeft cs with
  | '-' :: rest => (takeDigits? rest).map fun (n, rest) => (-(n : Int), rest)
  | '+' :: rest => (takeDigits? rest).map fun (n, rest) => ((n : Int), rest)
  | rest => (takeNumber? 4 rest).map fun (n, rest) => ((n : Int), rest)

def takeChar? (c : Char) : List Char → Option (List Char)
  | d :: rest => if d = c then some rest else none
  | [] => none

/-- The text of a year: at least four digits, with a sign if it is not among the years 0 to 9999. -/
def yearText (year : Int) : List Char :=
  if 0 ≤ year ∧ year ≤ 9999 then padded 4 year.natAbs
  else (if year < 0 then '-' else '+') :: padded 4 year.natAbs

/-! ### Date literals -/

def readDate? (cs : List Char) : Option Date := do
  let (day, cs) ← takeTwoDigits? cs
  let cs ← takeChar? '.' cs
  let (month, cs) ← takeTwoDigits? cs
  let cs ← takeChar? '.' cs
  let (year, cs) ← takeYear? cs
  let date : Date := ⟨year, month, day⟩
  if cs = [] ∧ date.isValid then some date else none

def readDateLiteral? (cs : List Char) : Option Instant := (readDate? cs).map Instant.ofDate

def Instant.dateLiteral (instant : Instant) : String :=
  let date := instant.date
  String.ofList (padded 2 date.day ++ '.' :: padded 2 date.month ++ '.' :: yearText date.year)

/-! ### Timestamps -/

/-- A time of day, with nanoseconds as in `Instant`. -/
structure TimeOfDay where
  second : Nat
  nano : Nat

def takeDay? (cs : List Char) : Option (Date × List Char) := do
  let (year, cs) ← takeYear? cs
  let cs ← takeChar? '-' (trimLeft cs)
  let (month, cs) ← takeTwoDigits? cs
  let cs ← takeChar? '-' (trimLeft cs)
  let (day, cs) ← takeTwoDigits? cs
  let date : Date := ⟨year, month, day⟩
  if date.isValid then some (date, cs) else none

/-- Splits off a fraction of a second in nanoseconds; digits after the ninth are dropped. -/
def takeFraction? : List Char → Option (Nat × List Char)
  | '.' :: cs =>
    let digits := cs.takeWhile isDigit
    if digits = [] then none
    else
      let kept := digits.take 9
      some (valueOfDigits kept * Nat.pow 10 (9 - kept.length), cs.dropWhile isDigit)
  | cs => some (0, cs)

/-- Splits off a time `HH:mm:ss` with an optional fraction. Second 60 is a leap second. -/
def takeTime? (cs : List Char) : Option (TimeOfDay × List Char) := do
  let (hour, cs) ← takeTwoDigits? cs
  let cs ← takeChar? ':' (trimLeft cs)
  let (minute, cs) ← takeTwoDigits? cs
  let cs ← takeChar? ':' (trimLeft cs)
  let (second, cs) ← takeTwoDigits? cs
  let (nano, cs) ← takeFraction? cs
  if hour ≤ 23 ∧ minute ≤ 59 ∧ second ≤ 60 then
    let whole := hour * 3600 + minute * 60
    if second = 60 then some (⟨whole + 59, nano + nanosPerSecond⟩, cs)
    else some (⟨whole + second, nano⟩, cs)
  else none

/-- Splits off two digits at once. -/
def takePair? : List Char → Option (Nat × List Char)
  | tens :: ones :: rest =>
    if isDigit tens ∧ isDigit ones then some (valueOfDigits [tens, ones], rest) else none
  | _ => none

/-- Splits off an offset from UTC in seconds: `Z`, `UTC`, or a signed number of hours and minutes
with colons and blanks between them. -/
def takeOffset? (cs : List Char) : Option (Int × List Char) :=
  let signed (sign : Int) (cs : List Char) : Option (Int × List Char) := do
    let (hours, cs) ← takePair? cs
    let (minutes, cs) ← takePair? (cs.dropWhile fun c => c == ':' || isBlank c)
    if hours ≤ 23 ∧ minutes ≤ 59 then some (sign * (hours * 3600 + minutes * 60 : Nat), cs)
    else none
  match cs with
  | '+' :: rest => signed 1 rest
  | '-' :: rest => signed (-1) rest
  | '\u2212' :: rest => signed (-1) rest
  | c :: rest =>
    if c = 'Z' ∨ c = 'z' then some (0, rest)
    else if (cs.take 3).map Char.toUpper = "UTC".toList then some (0, cs.drop 3)
    else none
  | [] => none

def readTimestamp? (text : String) : Option Instant := do
  let (date, cs) ← takeDay? text.toList
  let cs ← match cs with
    | c :: rest => if c = 'T' ∨ c = 't' ∨ c = ' ' then some rest else none
    | [] => none
  let (time, cs) ← takeTime? cs
  let (offset, cs) ← takeOffset? (trimLeft cs)
  let instant : Instant := ⟨(Instant.ofDate date).second + time.second - offset, time.nano⟩
  if trimLeft cs = [] ∧ instant.isInRange then some instant else none

/-- The fraction of a second with three, six or nine digits, as many as are needed. -/
def fractionText (nano : Nat) : List Char :=
  if nano = 0 then []
  else if nano % 1000000 = 0 then '.' :: padded 3 (nano / 1000000)
  else if nano % 1000 = 0 then '.' :: padded 6 (nano / 1000)
  else '.' :: padded 9 nano

def Instant.timestamp (instant : Instant) : String :=
  let date := instant.date
  let second := instant.secondOfDay
  let leap := if nanosPerSecond ≤ instant.nano then 1 else 0
  String.ofList <|
    yearText date.year ++ '-' :: padded 2 date.month ++ '-' :: padded 2 date.day ++ 'T' ::
      padded 2 (second / 3600) ++ ':' :: padded 2 (second / 60 % 60) ++ ':' ::
      padded 2 (second % 60 + leap) ++ fractionText (instant.nano - leap * nanosPerSecond) ++ ['Z']

end TestEngine.Calendar
