/-!
# Dates and times of day

Dates of the Gregorian calendar, extended to all years from -262143 to 262142, with the year 0
before the year 1; and times of day to the nanosecond. A leap second is the second 59 with more
than `10 ^ 9` nanoseconds.

A date is also the number of days since 1970-01-01, `Date.toDays`, and a moment the number of
milliseconds since the start of that day, `Moment.toMillis`; `Date.ofDays` and `Moment.ofMillis`
go back.
-/
namespace ScriptHost

/-- A day, by year, month and day of the month, both counted from one. -/
structure Date where
  year : Int
  month : Nat
  day : Nat
  deriving DecidableEq, Repr

structure TimeOfDay where
  hour : Nat
  minute : Nat
  second : Nat
  nanosecond : Nat
  deriving DecidableEq, Repr

structure Moment where
  date : Date
  time : TimeOfDay
  deriving DecidableEq, Repr

namespace Date

def minYear : Int := -262143
def maxYear : Int := 262142

def isLeap (year : Int) : Bool := year % 4 == 0 && (year % 100 != 0 || year % 400 == 0)

def yearLength (year : Int) : Nat := if isLeap year then 366 else 365

def monthLengths (year : Int) : List Nat :=
  [31, if isLeap year then 29 else 28, 31, 30, 31, 30, 31, 31, 30, 31, 30, 31]

/-- The length of a month, zero for a month that does not exist. -/
def monthLength (year : Int) (month : Nat) : Nat := ((0 :: monthLengths year)[month]?).getD 0

/-- The days from 0001-01-01 to the first of January of a year. -/
def daysBefore (year : Int) : Int :=
  365 * (year - 1) + (year - 1) / 4 - (year - 1) / 100 + (year - 1) / 400

/-- The days from 0001-01-01 to 1970-01-01. -/
def epochDays : Int := 719162

/-- The date with these parts, if there is one. -/
def ofParts? (year : Int) (month day : Nat) : Option Date :=
  if minYear ≤ year ∧ year ≤ maxYear ∧ 1 ≤ day ∧ day ≤ monthLength year month then
    some ⟨year, month, day⟩
  else none

/-- The day of the year, counted from one. -/
def ordinal (date : Date) : Nat :=
  ((monthLengths date.year).take (date.month - 1)).foldl (· + ·) date.day

/-- The month and the day in it that the day `day` after the start of `month` falls on. -/
def monthOfDay (month : Nat) : List Nat → Nat → Nat × Nat
  | [], day => (month, day)
  | length :: rest, day => if day ≤ length then (month, day)
    else monthOfDay (month + 1) rest (day - length)

/-- The date of a day of a year, if the year has it. -/
def ofOrdinal? (year : Int) (ordinal : Nat) : Option Date :=
  if minYear ≤ year ∧ year ≤ maxYear ∧ 1 ≤ ordinal ∧ ordinal ≤ yearLength year then
    let (month, day) := monthOfDay 1 (monthLengths year) ordinal
    some ⟨year, month, day⟩
  else none

/-- The days since 1970-01-01. -/
def toDays (date : Date) : Int := daysBefore date.year + date.ordinal - 1 - epochDays

/-- The year that a day, counted from 0001-01-01, falls in. -/
def yearOfDay (day : Int) : Int :=
  let guess := day * 400 / 146097 + 1
  if daysBefore (guess + 1) ≤ day then guess + 1
  else if daysBefore guess ≤ day then guess
  else guess - 1

/-- The date this many days after 1970-01-01, if it is in range. -/
def ofDays (days : Int) : Option Date :=
  let day := days + epochDays
  let year := yearOfDay day
  ofOrdinal? year (day - daysBefore year + 1).toNat

/-- The day of the week; Monday is zero. -/
def weekday (date : Date) : Nat := ((date.toDays + 3) % 7).toNat

/-- The year and the number of the week that has a date in it, where weeks start on Monday and
belong to the year that most of their days are in. -/
def isoWeek (date : Date) : Int × Nat :=
  let thursday := date.toDays + epochDays - date.weekday + 3
  let year := yearOfDay thursday
  (year, ((thursday - daysBefore year) / 7).toNat + 1)

/-- The date of a weekday of a numbered week, if the year has that week. -/
def ofIsoWeek? (year : Int) (week weekday : Nat) : Option Date := do
  if year < minYear ∨ maxYear < year ∨ week = 0 then none
  let january4 := daysBefore year - epochDays + 3
  let monday := january4 - (january4 + 3) % 7 + 7 * ((week : Int) - 1)
  let thursday := monday + 3 + epochDays
  if yearOfDay thursday ≠ year then none
  ofDays (monday + weekday)

/-- The number of the week of a year, where weeks start on the weekday `start` and the days
before the first of them are in week zero. -/
def weekFrom (date : Date) (start : Nat) : Nat :=
  (date.ordinal + 6 - (date.weekday + 7 - start) % 7) / 7

def quarter (date : Date) : Nat := (date.month - 1) / 3 + 1

end Date

/-- Milliseconds of a day. -/
def dayMillis : Int := 86400000

namespace TimeOfDay

def toMillis (time : TimeOfDay) : Int :=
  ((time.hour * 60 + time.minute) * 60 + time.second) * 1000 + time.nanosecond / 1000000

/-- The time this many milliseconds after midnight. -/
def ofMillis (millis : Nat) : TimeOfDay where
  hour := millis / 3600000
  minute := millis / 60000 % 60
  second := millis / 1000 % 60
  nanosecond := millis % 1000 * 1000000

end TimeOfDay

namespace Moment

def toMillis (moment : Moment) : Int := moment.date.toDays * dayMillis + moment.time.toMillis

/-- The moment this many milliseconds after the start of 1970, if its date is in range. -/
def ofMillis (millis : Int) : Option Moment :=
  (Date.ofDays (millis / dayMillis)).map fun date => ⟨date, .ofMillis (millis % dayMillis).toNat⟩

end Moment
end ScriptHost
