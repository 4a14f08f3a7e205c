import ScriptHost.Table
import ScriptHost.Value
/-!
# Reading JSON

`Value.read?` reads a whole text as one JSON value, and answers nothing for any other text. Of
an object with a repeated key the last entry counts, and collections nest at most 127 deep.

An integer that fits 64 bits stays one. Any other number takes as many leading digits as fit 64
bits, rounds them to a double and scales that by a power of ten; a number too large for a double
is no value.
-/
namespace ScriptHost.Value.Reader

/-- What is left of a text after its blanks: space, tab and the two line breaks. -/
def skipSpace (text : List Char) : List Char :=
  text.dropWhile fun c => c = ' ' || c = '\n' || c = '\t' || c = '\r'

/-- The leading digits of a number that fit 64 bits, and how many more were dropped. -/
structure Leading where
  value : Nat
  full : Bool
  dropped : Nat

/-- Takes one more digit, if the leading digits have room for it. -/
def Leading.take (l : Leading) (c : Char) : Leading :=
  let next := 10 * l.value + (c.toNat - '0'.toNat)
  if l.full || 0x10000000000000000 ≤ next then { l with full := true, dropped := l.dropped + 1 }
  else { l with value := next }

/-- `x · 10 ^ e`, with one rounding for each factor of at most `10 ^ 308`; nothing if it is too
large. -/
def scaled (x : Binary64) (e : Int) : Option Binary64 :=
  if 308 < e then if x.isZero then some x else none
  else if 0 ≤ e then
    let y := x.times (Binary64.ofDigits false 1 e)
    if y.isFinite then some y else none
  else if -308 ≤ e then some (x.dividedBy (Binary64.ofDigits false 1 (-e)))
  else if x.isZero then some x
  else scaled (x.dividedBy (Binary64.ofDigits false 1 308)) (e + 308)
termination_by (-e).toNat
decreasing_by omega

/-- An exponent: a sign, at least one digit. -/
def exponent? (text : List Char) : Option (Int × List Char) :=
  let (negative, digits) := match text with
    | '-' :: rest => (true, rest)
    | '+' :: rest => (false, rest)
    | rest => (false, rest)
  let run := digits.takeWhile Char.isDigit
  if run.isEmpty then none
  else
    let size : Int := decimalValue run
    some (if negative then -size else size, digits.dropWhile Char.isDigit)

/-- A fraction after the point: at least one digit. -/
def fraction? (text : List Char) : Option (List Char × List Char) :=
  let run := text.takeWhile Char.isDigit
  if run.isEmpty then none else some (run, text.dropWhile Char.isDigit)

/-- An exponent beyond 32 bits decides the number by itself: nothing if it is positive, zero if
not. -/
def hugeExponent (e : Int) : Bool := 0x80000000 ≤ e.natAbs

def float? (negative : Bool) (leading : Leading) (power e : Int) : Option Value :=
  let magnitude :=
    if hugeExponent e then
      if leading.value != 0 && 0 < e then none else some Binary64.zero
    else scaled (Binary64.ofInt leading.value) (power + e)
  magnitude.map fun x => number (.float (if negative then x.opposite else x))

/-- The fraction a text starts with, if there is a point; no digits if there is none. -/
def optionalFraction? : List Char → Option (List Char × List Char)
  | '.' :: rest => fraction? rest
  | rest => some ([], rest)

/-- The exponent a text starts with, if it does. -/
def optionalExponent? : List Char → Option (Option Int × List Char)
  | [] => some (none, [])
  | c :: rest =>
    if c = 'e' || c = 'E' then (exponent? rest).map fun (e, rest) => (some e, rest)
    else some (none, c :: rest)

def magnitude? (negative : Bool) (text : List Char) : Option (Value × List Char) := do
  let whole := text.takeWhile Char.isDigit
  if whole.isEmpty || (whole.length != 1 && whole.head? == some '0') then none
  let leading := whole.foldl Leading.take ⟨0, false, 0⟩
  let (fraction, rest) ← optionalFraction? (text.dropWhile Char.isDigit)
  let (exponent, rest) ← optionalExponent? rest
  if fraction.isEmpty && exponent.isNone && !leading.full then
    if negative && leading.value = 0 then some (number (.float Binary64.zero.opposite), rest)
    else some (ofInt (if negative then -leading.value else leading.value), rest)
  else
    let further := fraction.foldl Leading.take ⟨leading.value, false, 0⟩
    let power : Int := leading.dropped - (fraction.length - further.dropped : Nat)
    let value ← float? negative further power (exponent.getD 0)
    some (value, rest)

def hexValue? (c : Char) : Option Nat :=
  if '0' ≤ c ∧ c ≤ '9' then some (c.toNat - '0'.toNat)
  else if 'a' ≤ c ∧ c ≤ 'f' then some (c.toNat - 'a'.toNat + 10)
  else if 'A' ≤ c ∧ c ≤ 'F' then some (c.toNat - 'A'.toNat + 10)
  else none

/-- Four hexadecimal digits. -/
def unit? (a b c d : Char) : Option Nat := do
  some (((16 * (← hexValue? a) + (← hexValue? b)) * 16 + (← hexValue? c)) * 16 + (← hexValue? d))

/-- The character an escape other than `\u` stands for. -/
def shortEscape? : Char → Option Char
  | '"' => some '"'
  | '\\' => some '\\'
  | '/' => some '/'
  | 'b' => some '\x08'
  | 'f' => some '\x0c'
  | 'n' => some '\n'
  | 'r' => some '\r'
  | 't' => some '\t'
  | _ => none

/-- The rest of a string after its opening quote, in reverse before `kept`. A character beyond
U+FFFF may be written as two escapes; half of such a pair alone is no text. -/
def string? (kept : List Char) : List Char → Option (String × List Char)
  | [] => none
  | '"' :: rest => some (String.ofList kept.reverse, rest)
  | '\\' :: 'u' :: a :: b :: c :: d :: '\\' :: 'u' :: e :: f :: g :: h :: rest =>
    match unit? a b c d with
    | none => none
    | some high =>
      if 0xD800 ≤ high ∧ high ≤ 0xDBFF then
        match unit? e f g h with
        | none => none
        | some low =>
          if 0xDC00 ≤ low ∧ low ≤ 0xDFFF then
            string? (Char.ofNat (0x10000 + (high - 0xD800) * 0x400 + (low - 0xDC00)) :: kept) rest
          else none
      else if 0xDC00 ≤ high ∧ high ≤ 0xDFFF then none
      else string? (Char.ofNat high :: kept) ('\\' :: 'u' :: e :: f :: g :: h :: rest)
  | '\\' :: 'u' :: a :: b :: c :: d :: rest =>
    match unit? a b c d with
    | none => none
    | some n =>
      if 0xD800 ≤ n ∧ n ≤ 0xDFFF then none else string? (Char.ofNat n :: kept) rest
  | '\\' :: c :: rest =>
    match shortEscape? c with
    | none => none
    | some c => string? (c :: kept) rest
  | c :: rest => if c.toNat < 32 then none else string? (c :: kept) rest

/-- The rest of a text after a word it starts with. -/
def afterWord? : List Char → List Char → Option (List Char)
  | [], text => some text
  | c :: word, d :: text => if c = d then afterWord? word text else none
  | _ :: _, [] => none

mutual

/-- One value, with at most `depth` collections inside each other. Of two calls in a row at
least one follows a character just read, so a `fuel` above twice the number of characters is
never used up. -/
def value? (fuel depth : Nat) (text : List Char) : Option (Value × List Char) :=
  match fuel with
  | 0 => none
  | fuel + 1 =>
    match skipSpace text with
    | 'n' :: rest => (afterWord? "ull".toList rest).map fun rest => (null, rest)
    | 't' :: rest => (afterWord? "rue".toList rest).map fun rest => (bool true, rest)
    | 'f' :: rest => (afterWord? "alse".toList rest).map fun rest => (bool false, rest)
    | '"' :: rest => (string? [] rest).map fun (s, rest) => (string s, rest)
    | '-' :: rest => magnitude? true rest
    | '[' :: rest =>
      match depth with
      | 0 => none
      | depth + 1 =>
        match skipSpace rest with
        | ']' :: rest => some (array [], rest)
        | rest => (items? fuel depth [] rest).map fun (items, rest) => (array items, rest)
    | '\x7b' :: rest =>
      match depth with
      | 0 => none
      | depth + 1 =>
        match skipSpace rest with
        | '\x7d' :: rest => some (object [], rest)
        | rest =>
          (entries? fuel depth [] rest).map fun (entries, rest) =>
            (object (Table.ofList entries).toList, rest)
    | rest => magnitude? false rest

/-- The items of a list up to its end; `kept` are those before, in reverse. -/
def items? (fuel depth : Nat) (kept : List Value) (text : List Char) :
    Option (List Value × List Char) :=
  match fuel with
  | 0 => none
  | fuel + 1 =>
    match value? fuel depth text with
    | none => none
    | some (item, rest) =>
      match skipSpace rest with
      | ']' :: rest => some ((item :: kept).reverse, rest)
      | ',' :: rest => items? fuel depth (item :: kept) rest
      | _ => none

/-- The entries of an object up to its end; `kept` are those before, in reverse. -/
def entries? (fuel depth : Nat) (kept : List (String × Value)) (text : List Char) :
    Option (List (String × Value) × List Char) :=
  match fuel with
  | 0 => none
  | fuel + 1 =>
    match skipSpace text with
    | '"' :: rest =>
      match string? [] rest with
      | none => none
      | some (key, rest) =>
        match skipSpace rest with
        | ':' :: rest =>
          match value? fuel depth rest with
          | none => none
          | some (value, rest) =>
            match skipSpace rest with
            | '\x7d' :: rest => some (((key, value) :: kept).reverse, rest)
            | ',' :: rest => entries? fuel depth ((key, value) :: kept) rest
            | _ => none
        | _ => none
    | _ => none

end

end ScriptHost.Value.Reader

namespace ScriptHost.Value

/-- The value that a whole text writes in JSON, if it writes one. -/
def read? (text : String) : Option Value :=
  let chars := text.toList
  match Reader.value? (2 * chars.length + 2) 127 chars with
  | some (value, rest) => if (Reader.skipSpace rest).isEmpty then some value else none
  | none => none

end ScriptHost.Value
