import ScriptHost.Calendar.Date
import ScriptHost.Calendar.Pattern
/-!
# Fields of a date

What reading a text after a pattern yields: the fields that the pattern names, each at most once
or with equal values. `DateFields.date` and `DateFields.time` put a date and a time together
from them, and `DateFields.moment` both; a field that contradicts the result makes the text
unreadable.

A date needs year, month and day, or year and day of the year, or a year with a week and a
weekday. A time needs hour and minute; the second may be missing. A timestamp can stand in for
all of it.
-/
namespace ScriptHost

/-- Why no date or time comes out of some fields. -/
inductive FieldProblem where
  | notEnough
  /-- A value that no date has, or two that contradict each other. -/
  | contradiction
  deriving DecidableEq, Repr

structure DateFields where
  year : Option Int := none
  century : Option Int := none
  yearOfCentury : Option Int := none
  isoYear : Option Int := none
  isoYearOfCentury : Option Int := none
  quarter : Option Nat := none
  month : Option Nat := none
  day : Option Nat := none
  weekFromSunday : Option Nat := none
  weekFromMonday : Option Nat := none
  isoWeek : Option Nat := none
  /-- Monday is zero. -/
  weekday : Option Nat := none
  dayOfYear : Option Nat := none
  /-- Zero for the first half of the day, one for the second. -/
  half : Option Nat := none
  hourOfHalf : Option Nat := none
  minute : Option Nat := none
  /-- Sixty for a leap second. -/
  second : Option Nat := none
  nanosecond : Option Nat := none
  timestamp : Option Int := none
  offset : Option Int := none

namespace DateFields

/-- A field given a value: it must be new or have that value already. -/
def agree {α : Type} [DecidableEq α] (old : Option α) (new : α) : Option (Option α) :=
  match old with
  | none => some (some new)
  | some value => if value = new then some (some new) else none

/-- A natural between two bounds. -/
def within (low high : Int) (n : Int) : Option Nat :=
  if low ≤ n ∧ n ≤ high then some n.toNat else none

def setHour (fields : DateFields) (hour : Nat) : Option DateFields := do
  let half ← agree fields.half (hour / 12)
  let hourOfHalf ← agree fields.hourOfHalf (hour % 12)
  return { fields with half, hourOfHalf }

def setWeekday (fields : DateFields) (weekday : Nat) : Option DateFields := do
  return { fields with weekday := ← agree fields.weekday weekday }

def setYear (fields : DateFields) (n : Int) : Option DateFields := do
  if n < -0x80000000 ∨ 0x80000000 ≤ n then none
  return { fields with year := ← agree fields.year n }

/-- Gives a number field the number that was read for it. -/
def setNumber (fields : DateFields) (field : NumericField) (n : Int) : Option DateFields := do
  match field with
  | .year => fields.setYear n
  | .century => return { fields with century := ← agree fields.century n }
  | .yearOfCentury => return { fields with yearOfCentury := ← agree fields.yearOfCentury n }
  | .isoYear =>
    if n < -0x80000000 ∨ 0x80000000 ≤ n then none
    return { fields with isoYear := ← agree fields.isoYear n }
  | .isoYearOfCentury =>
    return { fields with isoYearOfCentury := ← agree fields.isoYearOfCentury n }
  | .quarter => return { fields with quarter := ← agree fields.quarter (← within 1 4 n) }
  | .month => return { fields with month := ← agree fields.month (← within 1 12 n) }
  | .day => return { fields with day := ← agree fields.day (← within 1 31 n) }
  | .weekFromSunday =>
    return { fields with weekFromSunday := ← agree fields.weekFromSunday (← within 0 53 n) }
  | .weekFromMonday =>
    return { fields with weekFromMonday := ← agree fields.weekFromMonday (← within 0 53 n) }
  | .isoWeek => return { fields with isoWeek := ← agree fields.isoWeek (← within 1 53 n) }
  | .dayFromSunday => fields.setWeekday (((← within 0 6 n) + 6) % 7)
  | .dayFromMonday => fields.setWeekday ((← within 1 7 n) - 1)
  | .dayOfYear => return { fields with dayOfYear := ← agree fields.dayOfYear (← within 1 366 n) }
  | .hour => fields.setHour (← within 0 23 n)
  | .hour12 =>
    return { fields with hourOfHalf := ← agree fields.hourOfHalf ((← within 1 12 n) % 12) }
  | .minute => return { fields with minute := ← agree fields.minute (← within 0 59 n) }
  | .second => return { fields with second := ← agree fields.second (← within 0 60 n) }
  | .nanosecond =>
    return { fields with nanosecond := ← agree fields.nanosecond (← within 0 999999999 n) }
  | .timestamp => return { fields with timestamp := ← agree fields.timestamp n }

/-- The year that a full year, a century and a year of the century say, if they say one and
agree. A year of the century alone lies between 1970 and 2069. -/
def wholeYear (year century yearOfCentury : Option Int) : Except FieldProblem (Option Int) :=
  match year, century, yearOfCentury with
  | year, none, none => .ok year
  | some y, century, yearOfCentury =>
    if 0 ≤ y ∧ century.getD (y / 100) = y / 100 ∧ yearOfCentury.getD (y % 100) = y % 100 then
      .ok (some y)
    else .error .contradiction
  | none, some q, some r => .ok (some (100 * q + r))
  | none, none, some r => .ok (some (r + if r < 70 then 2000 else 1900))
  | none, some _, none => .error .notEnough

/-- Whether a field is missing or has this value. -/
def fits {α : Type} [DecidableEq α] (field : Option α) (value : α) : Bool :=
  field.getD value == value

/-- Whether the fields of the calendar month agree with a date. -/
def fitsMonth (fields : DateFields) (date : Date) : Bool :=
  fits fields.year date.year &&
    (if 0 ≤ date.year then
      fits fields.century (date.year / 100) && fits fields.yearOfCentury (date.year % 100)
    else fields.century.isNone && fields.yearOfCentury.isNone) &&
    fits fields.month date.month && fits fields.day date.day

/-- Whether the fields of the numbered week agree with a date. -/
def fitsIsoWeek (fields : DateFields) (date : Date) : Bool :=
  let (year, week) := date.isoWeek
  fits fields.isoYear year &&
    (if 0 ≤ year then fits fields.isoYearOfCentury (year % 100)
      else fields.isoYearOfCentury.isNone) &&
    fits fields.isoWeek week && fits fields.weekday date.weekday

/-- Whether the day and the weeks of the year agree with a date. -/
def fitsYear (fields : DateFields) (date : Date) : Bool :=
  fits fields.dayOfYear date.ordinal && fits fields.weekFromSunday (date.weekFrom 6) &&
    fits fields.weekFromMonday (date.weekFrom 0)

/-- The date of a weekday in a week of the year, where weeks start on the weekday `start`. -/
def dateInWeek (year : Int) (week weekday start : Nat) : Except FieldProblem Date :=
  match Date.ofOrdinal? year 1 with
  | none => .error .contradiction
  | some first =>
    let firstWeek := 1 + (start + 7 - first.weekday) % 7
    let ordinal : Int :=
      (firstWeek : Int) + ((week : Int) - 1) * 7 + ((weekday + 7 - start) % 7 : Nat)
    if ordinal ≤ 0 then .error .contradiction
    else
      match Date.ofOrdinal? year ordinal.toNat with
      | none => .error .contradiction
      | some date => .ok date

def inRange (date : Option Date) : Except FieldProblem Date :=
  match date with
  | some date => .ok date
  | none => .error .contradiction

/-- The date that the fields give. -/
def date (fields : DateFields) : Except FieldProblem Date := do
  let year ← wholeYear fields.year fields.century fields.yearOfCentury
  let isoYear ← wholeYear fields.isoYear none fields.isoYearOfCentury
  let verified (date : Date) (checks : List (Date → Bool)) : Except FieldProblem Date :=
    if checks.all (· date) && fits fields.quarter date.quarter then .ok date
      else .error .contradiction
  let inYear : Option (Except FieldProblem Date) :=
    match year, fields.month, fields.day, fields.dayOfYear, fields.weekFromSunday,
      fields.weekFromMonday,
      fields.weekday with
    | some year, some month, some day, _, _, _, _ => some do
      verified (← inRange (Date.ofParts? year month day)) [fields.fitsIsoWeek, fields.fitsYear]
    | some year, _, _, some ordinal, _, _, _ => some do
      verified (← inRange (Date.ofOrdinal? year ordinal))
        [fields.fitsMonth, fields.fitsIsoWeek, fields.fitsYear]
    | some year, _, _, _, some week, _, some weekday => some do
      verified (← dateInWeek year week weekday 6) [fields.fitsMonth, fields.fitsIsoWeek,
        fields.fitsYear]
    | some year, _, _, _, _, some week, some weekday => some do
      verified (← dateInWeek year week weekday 0) [fields.fitsMonth, fields.fitsIsoWeek,
        fields.fitsYear]
    | _, _, _, _, _, _, _ => none
  match inYear, isoYear, fields.isoWeek, fields.weekday with
  | some result, _, _, _ => result
  | none, some year, some week, some weekday =>
    verified (← inRange (Date.ofIsoWeek? year week weekday)) [fields.fitsMonth, fields.fitsYear]
  | none, _, _, _ => .error .notEnough

/-- The time that the fields give. A fraction counts only beside a second. -/
def time (fields : DateFields) : Except FieldProblem TimeOfDay :=
  match fields.half, fields.hourOfHalf, fields.minute with
  | some half, some hour, some minute =>
    let second := fields.second.getD 0
    match fields.second, fields.nanosecond with
    | none, some _ => .error .notEnough
    | _, nanosecond =>
      let leap := if second = 60 then 1000000000 else 0
      .ok ⟨12 * half + hour, minute, min second 59, leap + nanosecond.getD 0⟩
  | _, _, _ => .error .notEnough

/-- The fields with those that a timestamp gives. A timestamp next to a leap second counts for
the second before it. -/
def fromTimestamp (fields : DateFields) (timestamp : Int) : Option DateFields := do
  let moment ← Moment.ofMillis (timestamp * 1000)
  let leap := fields.second == some 60
  if leap && moment.time.second != 59 && moment.time.second != 0 then none
  let moment ←
    if leap && moment.time.second = 0 then Moment.ofMillis ((timestamp - 1) * 1000) else some moment
  let fields ← if leap then some fields else fields.setNumber .second moment.time.second
  let fields ← fields.setYear moment.date.year
  let fields ← fields.setNumber .dayOfYear moment.date.ordinal
  let fields ← fields.setHour moment.time.hour
  fields.setNumber .minute moment.time.minute

/-- The moment that the fields give; an offset among them is of no account. -/
def moment (fields : DateFields) : Option Moment :=
  match fields.date, fields.time, fields.timestamp with
  | .ok date, .ok time, none => some ⟨date, time⟩
  | .ok date, .ok time, some timestamp =>
    let moment : Moment := ⟨date, { time with nanosecond := 0 }⟩
    let seconds := moment.toMillis / 1000
    if timestamp = seconds ∨ (1000000000 ≤ time.nanosecond ∧ timestamp = seconds + 1) then
      some ⟨date, time⟩
    else none
  | .error .contradiction, _, _ => none
  | _, .error .contradiction, _ => none
  | _, _, none => none
  | _, _, some timestamp =>
    match fields.fromTimestamp timestamp with
    | none => none
    | some fields =>
      match fields.date, fields.time with
      | .ok date, .ok time => some ⟨date, time⟩
      | _, _ => none

end DateFields
end ScriptHost
