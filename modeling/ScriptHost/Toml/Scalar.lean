import ScriptHost.Toml.Value
import ScriptHost.Script.Conversion
/-!
# Strings, numbers and dates in TOML

Readers for the values that have no values inside them. Each takes the text from the value's
first character on and hands back what follows the value, or nothing if there is no such value.
-/
namespace ScriptHost.Toml.Scalar

/-- Characters that strings and comments may hold as they are. -/
def isPlain (c : Char) : Bool := c = '\t' || (0x20 ≤ c.toNat && c.toNat != 0x7F)

def isSpace (c : Char) : Bool := c = ' ' || c = '\t'

/-- What follows a line break. -/
def afterBreak? : List Char → Option (List Char)
  | '\n' :: rest => some rest
  | '\r' :: '\n' :: rest => some rest
  | _ => none

/-- What follows any number of blanks and line breaks. -/
def skipBreaks : List Char → List Char
  | [] => []
  | '\r' :: '\n' :: rest => skipBreaks rest
  | c :: rest => if isSpace c || c = '\n' then skipBreaks rest else c :: rest

/-! ## Strings -/

def hexValue? (c : Char) : Option Nat :=
  if c.isDigit then some (c.toNat - '0'.toNat)
  else if 'a' ≤ c ∧ c ≤ 'f' then some (c.toNat - 'a'.toNat + 10)
  else if 'A' ≤ c ∧ c ≤ 'F' then some (c.toNat - 'A'.toNat + 10)
  else none

/-- The character with the number that some hexadecimal digits write. -/
def scalar? (digits : List Char) : Option Char := do
  let n := (← digits.mapM hexValue?).foldl (fun n d => 16 * n + d) 0
  if n < 0xD800 ∨ (0xDFFF < n ∧ n < 0x110000) then some (Char.ofNat n) else none

def shortEscape? : Char → Option Char
  | 'b' => some '\x08'
  | 't' => some '\t'
  | 'n' => some '\n'
  | 'f' => some '\x0c'
  | 'r' => some '\r'
  | '"' => some '"'
  | '\\' => some '\\'
  | _ => none

/-- What an escape stands for, after its backslash. -/
def escape? : List Char → Option (Char × List Char)
  | 'u' :: a :: b :: c :: d :: rest => (scalar? [a, b, c, d]).map (·, rest)
  | 'U' :: a :: b :: c :: d :: e :: f :: g :: h :: rest =>
    (scalar? [a, b, c, d, e, f, g, h]).map (·, rest)
  | c :: rest => (shortEscape? c).map (·, rest)
  | [] => none

/-- The rest of a string in double quotes, in reverse before `kept`. -/
def basic? (fuel : Nat) (kept text : List Char) : Option (String × List Char) :=
  match fuel, text with
  | 0, _ => none
  | _, [] => none
  | _, '"' :: rest => some (String.ofList kept.reverse, rest)
  | fuel + 1, '\\' :: rest =>
    match escape? rest with
    | some (c, rest) => basic? fuel (c :: kept) rest
    | none => none
  | fuel + 1, c :: rest => if isPlain c then basic? fuel (c :: kept) rest else none

/-- The rest of a string in single quotes. -/
def literal? (text : List Char) : Option (String × List Char) :=
  let content := text.takeWhile (· != '\'')
  match text.dropWhile (· != '\'') with
  | _ :: rest => if content.all isPlain then some (String.ofList content, rest) else none
  | [] => none

/-- How many of a run of quotes at the end of a multi-line string belong to its content: the
last three close it, and at most two may stand before them. -/
def quotesInside (run : Nat) : Nat := min (run - 3) 2

/-- The rest of a string in triple quotes of the kind `quote`, in reverse before `kept`. Line
breaks count as one line feed. With `escapes` there are escapes, among them one that joins
lines. -/
def multiline? (quote : Char) (escapes : Bool) (fuel : Nat) (kept text : List Char) :
    Option (String × List Char) :=
  match fuel, text with
  | 0, _ => none
  | _, [] => none
  | fuel + 1, c :: rest =>
    if c = quote then
      let run := (text.takeWhile (· == quote)).length
      if 3 ≤ run then
        let inside := quotesInside run
        some (String.ofList (List.replicate inside quote ++ kept).reverse, text.drop (inside + 3))
      else multiline? quote escapes fuel (c :: kept) rest
    else if escapes && c = '\\' then
      match afterBreak? (rest.dropWhile isSpace) with
      | some rest => multiline? quote escapes fuel kept (skipBreaks rest)
      | none =>
        match escape? rest with
        | some (c, rest) => multiline? quote escapes fuel (c :: kept) rest
        | none => none
    else
      match afterBreak? text with
      | some rest => multiline? quote escapes fuel ('\n' :: kept) rest
      | none => if isPlain c then multiline? quote escapes fuel (c :: kept) rest else none

/-- The content of a multi-line string starts after a line break that follows its opening quotes. -/
def openMultiline? (quote : Char) (escapes : Bool) (text : List Char) :
    Option (String × List Char) :=
  multiline? quote escapes (text.length + 1) [] ((afterBreak? text).getD text)

/-- A string of any of the four kinds. -/
def string? : List Char → Option (String × List Char)
  | '"' :: '"' :: '"' :: rest => openMultiline? '"' true rest
  | '"' :: rest => basic? (rest.length + 1) [] rest
  | '\'' :: '\'' :: '\'' :: rest => openMultiline? '\'' false rest
  | '\'' :: rest => literal? rest
  | _ => none

/-! ## Numbers -/

/-- Digits after the first of a number, each of which an underscore may stand before. -/
def moreDigits? (isDigit : Char → Bool) (kept : List Char) :
    List Char → Option (List Char × List Char)
  | '_' :: c :: rest => if isDigit c then moreDigits? isDigit (c :: kept) rest else none
  | ['_'] => none
  | c :: rest => if isDigit c then moreDigits? isDigit (c :: kept) rest
    else some (kept.reverse, c :: rest)
  | [] => some (kept.reverse, [])

def digits? (isDigit : Char → Bool) : List Char → Option (List Char × List Char)
  | c :: rest => if isDigit c then moreDigits? isDigit [c] rest else none
  | [] => none

def sign : List Char → Bool × List Char
  | '-' :: rest => (true, rest)
  | '+' :: rest => (false, rest)
  | text => (false, text)

/-- Decimal digits without leading zeros. -/
def whole? : List Char → Option (List Char × List Char)
  | '0' :: rest => some (['0'], rest)
  | text => digits? Char.isDigit text

def exponent? : List Char → Option (List Char × List Char)
  | c :: rest =>
    if c = 'e' || c = 'E' then
      let (negative, rest) := sign rest
      (digits? Char.isDigit rest).map fun (digits, rest) =>
        ('e' :: (if negative then '-' :: digits else digits), rest)
    else none
  | [] => none

/-- An exponent, or a fraction that an exponent may follow. -/
def tail? : List Char → Option (List Char × List Char)
  | '.' :: rest => do
    let (fraction, rest) ← digits? Char.isDigit rest
    match exponent? rest with
    | some (exponent, rest) => some ('.' :: fraction ++ exponent, rest)
    | none => some ('.' :: fraction, rest)
  | text => exponent? text

/-- A number with a fraction or an exponent. One too large for a double is none if it is
positive. -/
def float? (text : List Char) : Option (Value × List Char) := do
  let (negative, unsigned) := sign text
  let (whole, rest) ← whole? unsigned
  let (tail, rest) ← tail? rest
  let x ← Binary64.read? ((if negative then ['-'] else []) ++ whole ++ tail)
  if x = Binary64.infinity false then none
  some (.float x, rest)

def special? (text : List Char) : Option (Value × List Char) :=
  let (negative, unsigned) := sign text
  match unsigned with
  | 'i' :: 'n' :: 'f' :: rest => some (.float (Binary64.infinity negative), rest)
  | 'n' :: 'a' :: 'n' :: rest =>
    some (.float (if negative then Binary64.nan.opposite else Binary64.nan), rest)
  | _ => none

def signed? (n : Int) : Option Value :=
  if -0x8000000000000000 ≤ n ∧ n < 0x8000000000000000 then some (.integer (Int64.ofInt n)) else none

/-- An integer in base two, eight or sixteen, after its two-character mark. -/
def based? (base : Nat) (text : List Char) : Option (Value × List Char) := do
  let isDigit (c : Char) : Bool := ((hexValue? c).map fun d => decide (d < base)).getD false
  let (digits, rest) ← digits? isDigit text
  let values ← digits.mapM hexValue?
  let value ← signed? (values.foldl (fun n d => base * n + d) 0 : Nat)
  some (value, rest)

def integer? : List Char → Option (Value × List Char)
  | '0' :: 'x' :: rest => based? 16 rest
  | '0' :: 'o' :: rest => based? 8 rest
  | '0' :: 'b' :: rest => based? 2 rest
  | text => do
    let (negative, unsigned) := sign text
    let (digits, rest) ← whole? unsigned
    let n : Int := decimalValue digits
    let value ← signed? (if negative then -n else n)
    some (value, rest)

/-! ## Dates and times -/

/-- Exactly this many digits, as a number between two bounds. -/
def field? (count low high : Nat) (text : List Char) : Option (Nat × List Char) :=
  let digits := text.take count
  let n := decimalValue digits
  if digits.length = count && digits.all Char.isDigit && low ≤ n && n ≤ high then
    some (n, text.drop count)
  else none

def char? (c : Char) : List Char → Option (List Char)
  | d :: rest => if c = d then some rest else none
  | [] => none

def date? (text : List Char) : Option (Date × List Char) := do
  let (year, rest) ← field? 4 0 9999 text
  let rest ← char? '-' rest
  let (month, rest) ← field? 2 1 12 rest
  let rest ← char? '-' rest
  let (day, rest) ← field? 2 1 31 rest
  let date ← Date.ofParts? year month day
  some (date, rest)

/-- A fraction of a second; digits after the ninth are dropped. -/
def fraction : List Char → Option (Nat × List Char)
  | '.' :: rest =>
    let run := rest.takeWhile Char.isDigit
    let kept := run.take 9
    if run.isEmpty then none
    else some (decimalValue kept * Nat.pow 10 (9 - kept.length), rest.dropWhile Char.isDigit)
  | _ => none

def time? (text : List Char) : Option (TimeOfDay × List Char) := do
  let (hour, rest) ← field? 2 0 23 text
  let rest ← char? ':' rest
  let (minute, rest) ← field? 2 0 59 rest
  let rest ← char? ':' rest
  let (second, rest) ← field? 2 0 60 rest
  let (nanosecond, rest) := (fraction rest).getD (0, rest)
  some (⟨hour, minute, second, nanosecond⟩, rest)

def offset? : List Char → Option (Offset × List Char)
  | 'Z' :: rest => some (.zulu, rest)
  | 'z' :: rest => some (.zulu, rest)
  | c :: rest => do
    if c ≠ '+' ∧ c ≠ '-' then none
    let (hours, rest) ← field? 2 0 23 rest
    let rest ← char? ':' rest
    let (minutes, rest) ← field? 2 0 59 rest
    let n : Int := 60 * hours + minutes
    some (.minutes (if c = '-' then -n else n), rest)
  | [] => none

/-- A time after a date and the mark between them. -/
def timeAfter? : List Char → Option (TimeOfDay × List Char)
  | c :: rest => if c = 'T' || c = 't' || c = ' ' then time? rest else none
  | [] => none

/-- A date, a time, or a date with a time and perhaps an offset. -/
def datetime? (text : List Char) : Option (Value × List Char) :=
  match date? text with
  | none => (time? text).map fun (time, rest) => (.datetime ⟨none, some time, none⟩, rest)
  | some (date, rest) =>
    match timeAfter? rest with
    | none => some (.datetime ⟨some date, none, none⟩, rest)
    | some (time, rest) =>
      match offset? rest with
      | none => some (.datetime ⟨some date, some time, none⟩, rest)
      | some (offset, rest) => some (.datetime ⟨some date, some time, some offset⟩, rest)

/-- A date, a time or a number. -/
def number? (text : List Char) : Option (Value × List Char) :=
  (datetime? text).or ((float? text).or ((special? text).or (integer? text)))

end ScriptHost.Toml.Scalar
