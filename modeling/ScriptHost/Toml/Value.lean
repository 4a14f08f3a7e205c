import ScriptHost.Calendar.Date
import ScriptHost.Calendar.Writing
import ScriptHost.Table
import ScriptHost.Value
/-!
# TOML values

The values of a TOML document: strings, signed 64-bit integers, doubles, truth values, dates and
times, arrays, and tables with their keys in ascending order.

`Toml.Value.same` is equality of values, where doubles compare as numbers: the two zeros are
equal and a NaN equals nothing.
-/
namespace ScriptHost.Toml

/-- The distance from universal time. -/
inductive Offset where
  | zulu
  | minutes (n : Int)
  deriving DecidableEq, Repr

/-- A date, a time, or both; with both, perhaps an offset. The second 60 is a leap second. -/
structure Datetime where
  date : Option Date
  time : Option TimeOfDay
  offset : Option Offset
  deriving DecidableEq, Repr

namespace Datetime

def offsetText : Offset → String
  | .zulu => "Z"
  | .minutes n =>
    (if n < 0 then "-" else "+") ++ Writing.natural .zeros 2 (n.natAbs / 60) ++ ":" ++
      Writing.natural .zeros 2 (n.natAbs % 60)

def dateText (date : Date) : String :=
  Writing.natural .zeros 4 date.year.toNat ++ "-" ++ Writing.natural .zeros 2 date.month ++ "-" ++
    Writing.natural .zeros 2 date.day

/-- The fraction of a second without the zeros at its end. -/
def fractionText (nanosecond : Nat) : String :=
  if nanosecond = 0 then ""
  else
    let digits := (Writing.natural .zeros 9 nanosecond).toList
    String.ofList ('.' :: (digits.reverse.dropWhile (· == '0')).reverse)

def timeText (time : TimeOfDay) : String :=
  Writing.natural .zeros 2 time.hour ++ ":" ++ Writing.natural .zeros 2 time.minute ++ ":" ++
    Writing.natural .zeros 2 time.second ++ fractionText time.nanosecond

/-- The one form in which a date or time is written as text. -/
def text (datetime : Datetime) : String :=
  let date := (datetime.date.map dateText).getD ""
  let mark := if datetime.date.isSome && datetime.time.isSome then "T" else ""
  let time := (datetime.time.map timeText).getD ""
  date ++ mark ++ time ++ (datetime.offset.map offsetText).getD ""

end Datetime

inductive Value where
  | string (s : String)
  | integer (n : Int64)
  | float (x : Binary64)
  | boolean (b : Bool)
  | datetime (d : Datetime)
  | array (items : List Value)
  | table (entries : List (String × Value))
  deriving Inhabited

namespace Value

def typeName : Value → String
  | string _ => "string"
  | integer _ => "integer"
  | float _ => "float"
  | boolean _ => "boolean"
  | datetime _ => "datetime"
  | array _ => "array"
  | table _ => "table"

mutual

def same : Value → Value → Bool
  | string s, string t => s == t
  | integer m, integer n => m == n
  | float x, float y => x.same y
  | boolean a, boolean b => a == b
  | datetime d, datetime e => d == e
  | array items, array others => sameItems items others
  | table entries, table others => sameEntries entries others
  | _, _ => false

def sameItems : List Value → List Value → Bool
  | [], [] => true
  | item :: rest, other :: others => item.same other && sameItems rest others
  | _, _ => false

def sameEntries : List (String × Value) → List (String × Value) → Bool
  | [], [] => true
  | (key, value) :: rest, (otherKey, other) :: others =>
    key == otherKey && value.same other && sameEntries rest others
  | _, _ => false

end

end Value
end ScriptHost.Toml
