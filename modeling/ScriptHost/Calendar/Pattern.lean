import ScriptHost.Text.Blank
/-!
# Date patterns

A pattern is a text in which `%` and one or more characters stand for a field of a date or time.
Outside of fields a blank stands for any run of blanks when a date is read, and every other
character for itself.

`Pattern.ofText` cuts a pattern into items. A `%` that starts no field makes an `invalid` item,
with which nothing can be read or written.
-/
namespace ScriptHost

/-- Fields that are numbers. -/
inductive NumericField where
  | year
  | century
  | yearOfCentury
  | isoYear
  | isoYearOfCentury
  | quarter
  | month
  | day
  /-- The week of the year, weeks starting on Sunday. -/
  | weekFromSunday
  | weekFromMonday
  | isoWeek
  /-- The day of the week, Sunday being zero. -/
  | dayFromSunday
  /-- The day of the week, Monday being one. -/
  | dayFromMonday
  | dayOfYear
  | hour
  /-- The hour of a twelve-hour clock. -/
  | hour12
  | minute
  | second
  | nanosecond
  /-- Seconds since the start of 1970. -/
  | timestamp
  deriving DecidableEq, Repr

inductive Padding where
  | none
  | zeros
  | blanks
  deriving DecidableEq, Repr

/-- How far the text of an offset from universal time goes. -/
inductive OffsetStyle where
  | plain
  | colon
  | seconds
  | hours
  deriving DecidableEq, Repr

/-- Fields that are words or have a form of their own. -/
inductive WordField where
  | month (long : Bool)
  | weekday (long : Bool)
  /-- The half of the day. -/
  | half (upper : Bool)
  /-- A point and the fraction of the second, nothing if it is zero. -/
  | fraction
  /-- Exactly this many digits of the fraction of the second, after a point if `point`. -/
  | fractionDigits (digits : Nat) (point : Bool)
  | zoneName
  | offset (style : OffsetStyle)
  /-- An offset that may lack its minutes or be written `Z`; it is only read. -/
  | looseOffset
  /-- Date, time and offset in one. -/
  | complete
  deriving DecidableEq, Repr

inductive PatternItem where
  | literal (c : Char)
  | space (c : Char)
  | number (field : NumericField) (padding : Padding)
  | word (field : WordField)
  | invalid
  deriving DecidableEq, Repr

namespace Pattern

open PatternItem NumericField

def padded (field : NumericField) : PatternItem := number field .zeros

/-- Date and time of day as hours, minutes and seconds. -/
def clock : List PatternItem :=
  [padded hour, literal ':', padded minute, literal ':', padded second]

def slashDate : List PatternItem :=
  [padded month, literal '/', padded day, literal '/', padded yearOfCentury]

/-- The items that a single character after `%` stands for. -/
def field : Char → List PatternItem
  | 'A' => [word (.weekday true)]
  | 'B' => [word (.month true)]
  | 'C' => [padded century]
  | 'D' => slashDate
  | 'F' => [padded year, literal '-', padded month, literal '-', padded day]
  | 'G' => [padded isoYear]
  | 'H' => [padded hour]
  | 'I' => [padded hour12]
  | 'M' => [padded minute]
  | 'P' => [word (.half false)]
  | 'R' => [padded hour, literal ':', padded minute]
  | 'S' => [padded second]
  | 'T' => clock
  | 'U' => [padded weekFromSunday]
  | 'V' => [padded isoWeek]
  | 'W' => [padded weekFromMonday]
  | 'X' => clock
  | 'Y' => [padded year]
  | 'Z' => [word .zoneName]
  | 'a' => [word (.weekday false)]
  | 'b' => [word (.month false)]
  | 'c' =>
    [word (.weekday false), space ' ', word (.month false), space ' ', number day .blanks,
      space ' '] ++
      clock ++ [space ' ', padded year]
  | 'd' => [padded day]
  | 'e' => [number day .blanks]
  | 'f' => [padded nanosecond]
  | 'g' => [padded isoYearOfCentury]
  | 'h' => [word (.month false)]
  | 'j' => [padded dayOfYear]
  | 'k' => [number hour .blanks]
  | 'l' => [number hour12 .blanks]
  | 'm' => [padded month]
  | 'n' => [space '\n']
  | 'p' => [word (.half true)]
  | 'q' => [number quarter .none]
  | 'r' => [padded hour12, literal ':', padded minute, literal ':', padded second, space ' ',
      word (.half true)]
  | 's' => [number timestamp .none]
  | 't' => [space '\t']
  | 'u' => [number dayFromMonday .none]
  | 'v' => [number day .blanks, literal '-', word (.month false), literal '-', padded year]
  | 'w' => [number dayFromSunday .none]
  | 'x' => slashDate
  | 'y' => [padded yearOfCentury]
  | 'z' => [word (.offset .plain)]
  | '+' => [word .complete]
  | '%' => [literal '%']
  | _ => [invalid]

/-- A field with a padding of the pattern's own; only single numbers have one. -/
def repadded (padding : Padding) (c : Char) : PatternItem :=
  match field c with
  | [number field _] => number field padding
  | _ => invalid

def ofChars : List Char → List PatternItem
  | [] => []
  | '%' :: ':' :: ':' :: ':' :: 'z' :: rest => word (.offset .hours) :: ofChars rest
  | '%' :: ':' :: ':' :: 'z' :: rest => word (.offset .seconds) :: ofChars rest
  | '%' :: ':' :: 'z' :: rest => word (.offset .colon) :: ofChars rest
  | '%' :: '#' :: 'z' :: rest => word .looseOffset :: ofChars rest
  | '%' :: '.' :: 'f' :: rest => word .fraction :: ofChars rest
  | '%' :: '.' :: '3' :: 'f' :: rest => word (.fractionDigits 3 true) :: ofChars rest
  | '%' :: '.' :: '6' :: 'f' :: rest => word (.fractionDigits 6 true) :: ofChars rest
  | '%' :: '.' :: '9' :: 'f' :: rest => word (.fractionDigits 9 true) :: ofChars rest
  | '%' :: '3' :: 'f' :: rest => word (.fractionDigits 3 false) :: ofChars rest
  | '%' :: '6' :: 'f' :: rest => word (.fractionDigits 6 false) :: ofChars rest
  | '%' :: '9' :: 'f' :: rest => word (.fractionDigits 9 false) :: ofChars rest
  | '%' :: '-' :: c :: rest => repadded .none c :: ofChars rest
  | '%' :: '0' :: c :: rest => repadded .zeros c :: ofChars rest
  | '%' :: '_' :: c :: rest => repadded .blanks c :: ofChars rest
  | '%' :: c :: rest => field c ++ ofChars rest
  | c :: rest =>
    (if c = '%' then invalid else if Text.isBlank c then space c else literal c) :: ofChars rest

/-- The items of a pattern. -/
def ofText (text : String) : List PatternItem := ofChars text.toList

end Pattern
end ScriptHost
