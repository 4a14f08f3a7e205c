import ScriptHost.Calendar.Date
import ScriptHost.Calendar.Pattern
/-!
# Writing moments

`Moment.write?` writes a moment in universal time after a pattern, and nothing if the pattern
has an invalid item. Numbers are padded to the width of their field; a year outside 0 to 9999
has a sign.
-/
namespace ScriptHost

namespace Writing

def shortMonths : List String :=
  ["Jan", "Feb", "Mar", "Apr", "May", "Jun", "Jul", "Aug", "Sep", "Oct", "Nov", "Dec"]

def longMonths : List String :=
  ["January", "February", "March", "April", "May", "June", "July", "August", "September", "October",
    "November", "December"]

def shortWeekdays : List String := ["Mon", "Tue", "Wed", "Thu", "Fri", "Sat", "Sun"]

def longWeekdays : List String :=
  ["Monday", "Tuesday", "Wednesday", "Thursday", "Friday", "Saturday", "Sunday"]

/-- A number filled up on the left to a width. -/
def filled (fill : Char) (width : Nat) (text : String) : String :=
  String.ofList (List.replicate (width - text.length) fill) ++ text

/-- A natural at least this wide. -/
def natural (padding : Padding) (width n : Nat) : String :=
  match padding with
  | .none => toString n
  | .zeros => filled '0' width (toString n)
  | .blanks => filled ' ' width (toString n)

/-- An integer at least this wide with its sign, which padding zeros stand behind. -/
def signed (padding : Padding) (width : Nat) (plus : Bool) (n : Int) : String :=
  let sign := if n < 0 then "-" else if plus then "+" else ""
  match padding with
  | .none => sign ++ toString n.natAbs
  | .zeros => sign ++ filled '0' (width - sign.length) (toString n.natAbs)
  | .blanks => filled ' ' width (sign ++ toString n.natAbs)

def year (padding : Padding) (n : Int) : String :=
  if 0 ≤ n ∧ n < 10000 then signed padding 4 false n else signed padding 5 true n

/-- A field of two places. Its number is kept modulo 256, and its first place is the character
that many places after the zero. -/
def pair (padding : Padding) (n : Int) : String :=
  let n := (n % 256).toNat
  let first := match n / 10, padding with
    | 0, .none => ""
    | 0, .blanks => " "
    | tens, _ => String.ofList [Char.ofNat ('0'.toNat + tens)]
  first ++ toString (n % 10)

def hour12 (hour : Nat) : Nat := if hour % 12 = 0 then 12 else hour % 12

/-- The fraction of a second with no more digits than it needs, in threes. -/
def fraction (nanosecond : Nat) : String :=
  if nanosecond = 0 then ""
  else if nanosecond % 1000000 = 0 then "." ++ natural .zeros 3 (nanosecond / 1000000)
  else if nanosecond % 1000 = 0 then "." ++ natural .zeros 6 (nanosecond / 1000)
  else "." ++ natural .zeros 9 nanosecond

def number (moment : Moment) (padding : Padding) : NumericField → String
  | .year => year padding moment.date.year
  | .century => pair padding (moment.date.year / 100)
  | .yearOfCentury => pair padding (moment.date.year % 100)
  | .isoYear => year padding moment.date.isoWeek.1
  | .isoYearOfCentury => pair padding (moment.date.isoWeek.1 % 100)
  | .quarter => toString moment.date.quarter
  | .month => pair padding moment.date.month
  | .day => pair padding moment.date.day
  | .weekFromSunday => pair padding (moment.date.weekFrom 6)
  | .weekFromMonday => pair padding (moment.date.weekFrom 0)
  | .isoWeek => pair padding moment.date.isoWeek.2
  | .dayFromSunday => toString ((moment.date.weekday + 1) % 7)
  | .dayFromMonday => toString (moment.date.weekday + 1)
  | .dayOfYear => natural padding 3 moment.date.ordinal
  | .hour => pair padding moment.time.hour
  | .hour12 => pair padding (hour12 moment.time.hour)
  | .minute => pair padding moment.time.minute
  | .second => pair padding (moment.time.second + moment.time.nanosecond / 1000000000 : Nat)
  | .nanosecond => natural padding 9 (moment.time.nanosecond % 1000000000)
  | .timestamp => signed padding 9 false (moment.toMillis / 1000)

def word? (moment : Moment) : WordField → Option String
  | .month long => (if long then longMonths else shortMonths)[moment.date.month - 1]?
  | .weekday long => (if long then longWeekdays else shortWeekdays)[moment.date.weekday]?
  | .half upper =>
    if moment.time.hour < 12 then some (if upper then "AM" else "am")
    else some (if upper then "PM" else "pm")
  | .fraction => some (fraction (moment.time.nanosecond % 1000000000))
  | .fractionDigits digits point =>
    let shown := moment.time.nanosecond % 1000000000 / Nat.pow 10 (9 - digits)
    some ((if point then "." else "") ++ natural .zeros digits shown)
  | .zoneName => some "+00:00"
  | .offset .plain => some "+0000"
  | .offset .colon => some "+00:00"
  | .offset .seconds => some "+00:00:00"
  | .offset .hours => some "+00"
  | .looseOffset => none
  | .complete =>
    some (year .zeros moment.date.year ++ "-" ++ pair .zeros moment.date.month ++ "-" ++
      pair .zeros moment.date.day ++ "T" ++ pair .zeros moment.time.hour ++ ":" ++
      pair .zeros moment.time.minute ++ ":" ++
      pair .zeros (moment.time.second + moment.time.nanosecond / 1000000000 : Nat) ++
      fraction (moment.time.nanosecond % 1000000000) ++ "+00:00")

def item? (moment : Moment) : PatternItem → Option String
  | .literal c => some (String.ofList [c])
  | .space c => some (String.ofList [c])
  | .number field padding => some (number moment padding field)
  | .word field => word? moment field
  | .invalid => none

end Writing

/-- A moment after a pattern. -/
def Moment.write? (moment : Moment) (pattern : String) : Option String :=
  ((Pattern.ofText pattern).mapM (Writing.item? moment)).map String.join

end ScriptHost
