import ScriptHost.Calendar.Fields
import ScriptHost.Calendar.Writing
import ScriptHost.Script.Conversion
/-!
# Reading moments

`Moment.read?` reads a whole text after a pattern, and nothing if the text does not follow it.
Blanks in the pattern and before a number stand for any run of blanks, also none; names are read
in either case.
-/
namespace ScriptHost.Reading

/-- A natural of one to `width` digits that fits 64 bits. -/
def natural? (width : Option Nat) (text : List Char) : Option (Nat × List Char) :=
  let run := text.takeWhile Char.isDigit
  let run := match width with
    | some width => run.take width
    | none => run
  let n := decimalValue run
  if run.isEmpty || 0x8000000000000000 ≤ n then none else some (n, text.drop run.length)

/-- How many digits a number field takes at most, if there is a limit. -/
def width? : NumericField → Option Nat
  | .year | .isoYear => some 4
  | .dayOfYear => some 3
  | .nanosecond => some 9
  | .timestamp => none
  | .quarter | .dayFromSunday | .dayFromMonday => some 1
  | _ => some 2

/-- The number of a field; years may have a sign, and then as many digits as they need. -/
def number? (field : NumericField) (text : List Char) : Option (Int × List Char) :=
  let text := Text.trimStart text
  let isSigned := field = .year || field = .isoYear
  match text with
  | '-' :: rest => if isSigned then (natural? none rest).map fun (n, rest) => (-n, rest) else none
  | '+' :: rest => if isSigned then (natural? none rest).map fun (n, rest) => (n, rest) else none
  | text => (natural? (width? field) text).map fun (n, rest) => (n, rest)

/-- What follows a word that a text starts with, in either case. -/
def afterWord? : List Char → List Char → Option (List Char)
  | [], text => some text
  | w :: word, c :: text => if w.toLower = c.toLower then afterWord? word text else none
  | _ :: _, [] => none

/-- The index of the first of some names that a text starts with. -/
def name? (names : List String) (text : List Char) : Option (Nat × List Char) :=
  let found := (names.zipIdx).filterMap fun (name, i) => (afterWord? name.toList text).map (i, ·)
  found.head?

/-- The index of a name by its first three letters, and all of the name if `long` and it is
there. -/
def longName? (long : Bool) (short full : List String) (text : List Char) :
    Option (Nat × List Char) :=
  (name? short text).map fun (i, rest) =>
    let suffix := ((full[i]?).getD "").toList.drop 3
    match afterWord? suffix rest with
    | some behind => (i, if long then behind else rest)
    | none => (i, rest)

/-- Exactly this many digits of a fraction, as nanoseconds. -/
def digits? (count : Nat) (text : List Char) : Option (Nat × List Char) :=
  let run := (text.takeWhile Char.isDigit).take count
  if run.length = count then some (decimalValue run * Nat.pow 10 (9 - count), text.drop count)
    else none

/-- All digits of a fraction, as nanoseconds; those after the ninth are dropped. -/
def fraction? (text : List Char) : Option (Nat × List Char) :=
  let run := text.takeWhile Char.isDigit
  let kept := run.take 9
  if run.isEmpty then none
  else some (decimalValue kept * Nat.pow 10 (9 - kept.length), text.dropWhile Char.isDigit)

/-- The minutes of an offset: two digits, the first below six. -/
def offsetMinutes? (loose : Bool) : List Char → Option (Nat × List Char)
  | a :: b :: rest =>
    if a.isDigit && a.toNat < '6'.toNat && b.isDigit then some (decimalValue [a, b], rest) else none
  | [] => if loose then some (0, []) else none
  | [_] => none

/-- An offset: a sign, two digits of hours, colons or blanks, the minutes. -/
def signedOffset? (loose : Bool) (text : List Char) : Option (Int × List Char) :=
  match text with
  | sign :: a :: b :: rest =>
    if (sign = '+' || sign = '-' || sign = '\u2212') && a.isDigit && b.isDigit then
      let rest := rest.dropWhile fun c => c = ':' || Text.isBlank c
      (offsetMinutes? loose rest).map fun (minutes, rest) =>
        let seconds : Int := 3600 * decimalValue [a, b] + 60 * minutes
        (if sign = '+' then seconds else -seconds, rest)
    else none
  | _ => none

/-- An offset, which may be the letter Z if `zulu`. -/
def offset? (zulu loose : Bool) (text : List Char) : Option (Int × List Char) :=
  match text with
  | 'Z' :: rest => if zulu then some (0, rest) else none
  | 'z' :: rest => if zulu then some (0, rest) else none
  | text => signedOffset? loose text

abbrev Step := Option (DateFields × List Char)

def setOffset (fields : DateFields) (offset : Option (Int × List Char)) : Step := do
  let (seconds, rest) ← offset
  return ({ fields with offset := ← DateFields.agree fields.offset seconds }, rest)

def setNanosecond (fields : DateFields) (nanosecond : Option (Nat × List Char)) : Step := do
  let (n, rest) ← nanosecond
  return (← fields.setNumber .nanosecond n, rest)

/-- A fraction that may be missing together with its point. -/
def pointFraction (fields : DateFields) (read : List Char → Option (Nat × List Char)) :
    List Char → Step
  | '.' :: rest => setNanosecond fields (read rest)
  | text => some (fields, text)

/-- Reads an item that stands for one thing. -/
def simple (fields : DateFields) (text : List Char) : PatternItem → Step
  | .literal c =>
    match text with
    | d :: rest => if c = d then some (fields, rest) else none
    | [] => none
  | .space _ => some (fields, Text.trimStart text)
  | .number field _ => do
    let (n, rest) ← number? field text
    return (← fields.setNumber field n, rest)
  | .word (.month long) => do
    let (i, rest) ← longName? long Writing.shortMonths Writing.longMonths text
    return (← fields.setNumber .month (i + 1), rest)
  | .word (.weekday long) => do
    let (i, rest) ← longName? long Writing.shortWeekdays Writing.longWeekdays text
    return (← fields.setWeekday i, rest)
  | .word (.half _) => do
    let (i, rest) ← name? ["am", "pm"] text
    return ({ fields with half := ← DateFields.agree fields.half i }, rest)
  | .word .fraction => pointFraction fields fraction? text
  | .word (.fractionDigits count true) => pointFraction fields (digits? count) text
  | .word (.fractionDigits count false) => setNanosecond fields (digits? count text)
  | .word .zoneName => some (fields, text.dropWhile fun c => !Text.isBlank c)
  | .word (.offset _) => setOffset fields (offset? false false (Text.trimStart text))
  | .word .looseOffset => setOffset fields (offset? true true (Text.trimStart text))
  | .word .complete => none
  | .invalid => none

def simples (fields : DateFields) (text : List Char) : List PatternItem → Step
  | [] => some (fields, text)
  | item :: rest => do
    let (fields, text) ← simple fields text item
    simples fields text rest

/-- Date, a T or a blank, time and offset. -/
def complete (fields : DateFields) (text : List Char) : Step := do
  let (fields, text) ← simples fields text (Pattern.field 'F')
  let text ← match text with
    | c :: rest => if c = 'T' || c = 't' || c = ' ' then some rest else none
    | [] => none
  let (fields, text) ← simples fields text Pattern.clock
  let (fields, text) ← simple fields text (.word .fraction)
  let text := Text.trimStart text
  match afterWord? "UTC".toList text with
  | some rest => setOffset fields (some (0, rest))
  | none => setOffset fields (offset? true false text)

/-- Reads the items of a pattern one after the other. -/
def all (fields : DateFields) (text : List Char) : List PatternItem → Step
  | [] => some (fields, text)
  | .word .complete :: rest => do
    let (fields, text) ← complete fields text
    all fields text rest
  | item :: rest => do
    let (fields, text) ← simple fields text item
    all fields text rest

/-- The fields that a whole text gives. -/
def fields? (text pattern : String) : Option DateFields :=
  match all {} text.toList (Pattern.ofText pattern) with
  | some (fields, []) => some fields
  | _ => none

end ScriptHost.Reading

namespace ScriptHost

/-- The moment that a text gives after a pattern. -/
def Moment.read? (text pattern : String) : Option Moment :=
  (Reading.fields? text pattern).bind DateFields.moment

/-- The date that a text gives after a pattern, whatever it says of the time. -/
def Date.read? (text pattern : String) : Option Date :=
  (Reading.fields? text pattern).bind fun fields => fields.date.toOption

end ScriptHost
