import ScriptHost.Decimal.Binary64
/-!
# Decimal digits of a double

Reading: `ofDigits` is the double nearest to `digits · 10 ^ exponent`; `Binary64.read?` accepts
a sign, digits with at most one point among or beside them, and an exponent, or one of the words
for infinity and NaN.

Writing: `Shortest.of` gives the fewest digits that read back as the same number, and of those the
nearest to it. It walks the grids of 1, 2, … 17 digits and takes the first that has a point in the
interval of reals which round to the number; if any point of a grid lies there, so does one of the
number's two neighbours on that grid, so two candidates are enough.
-/
namespace ScriptHost

/-- Ten to the power `e` as a factor of a numerator. -/
private def tenUp (e : Int) : Nat := Nat.pow 10 e.toNat

/-- Ten to the power `e` as a factor of a denominator. -/
private def tenDown (e : Int) : Nat := Nat.pow 10 (-e).toNat

/-- The natural that a list of ASCII digits writes in base ten. -/
def decimalValue (digits : List Char) : Nat :=
  digits.foldl (fun n c => 10 * n + (c.toNat - '0'.toNat)) 0

namespace Binary64

/-- The double nearest to `digits · 10 ^ exponent`. Exponents far outside the range of doubles are
decided without computing the power. -/
def ofDigits (negative : Bool) (digits : Nat) (exponent : Int) : Binary64 :=
  let size := (Nat.toDigits 10 digits).length
  if digits = 0 then ofMagnitude negative 0
  else if 400 < exponent + size then infinity negative
  else if exponent + size < -400 then ofMagnitude negative 0
  else nearest negative (digits * tenUp exponent) (tenDown exponent)

/-- A signed run of digits that ends the text. -/
private def readExponent (text : List Char) : Option Int :=
  let (negative, digits) := match text with
    | '-' :: rest => (true, rest)
    | '+' :: rest => (false, rest)
    | rest => (false, rest)
  if digits.isEmpty || !digits.all Char.isDigit then none
  else some (if negative then -(decimalValue digits : Int) else decimalValue digits)

/-- An unsigned number: digits, at most one point, an exponent. -/
private def readMagnitude (negative : Bool) (text : List Char) : Option Binary64 :=
  let whole := text.takeWhile Char.isDigit
  let afterWhole := text.dropWhile Char.isDigit
  let (fraction, rest) := match afterWhole with
    | '.' :: rest => (rest.takeWhile Char.isDigit, rest.dropWhile Char.isDigit)
    | rest => ([], rest)
  if whole.isEmpty && fraction.isEmpty then none
  else
    let exponent := match rest with
      | [] => some 0
      | c :: rest => if c = 'e' || c = 'E' then readExponent rest else none
    exponent.map fun e =>
      ofDigits negative (decimalValue (whole ++ fraction)) (e - fraction.length)

/-- Reads a whole text as a number. -/
def read? (text : List Char) : Option Binary64 :=
  let (negative, magnitude) := match text with
    | '-' :: rest => (true, rest)
    | '+' :: rest => (false, rest)
    | rest => (false, rest)
  let word := String.ofList (magnitude.map Char.toLower)
  if word = "inf" || word = "infinity" then some (infinity negative)
  else if word = "nan" then some (ofMagnitude negative nan.magnitudeBits)
  else readMagnitude negative magnitude

end Binary64

/-- A positive decimal number `digits · 10 ^ exponent`. -/
structure Shortest where
  digits : Nat
  exponent : Int

namespace Shortest

/-- What decides whether a point rounds to the number `value / (4 · den)`: the ends of the
interval of reals that do, over the same denominator, and whether the ends belong to it. -/
private structure Interval where
  value : Nat
  low : Nat
  high : Nat
  den : Nat
  closed : Bool

private def Interval.contains (i : Interval) (num den : Nat) : Bool :=
  let left := i.low * den
  let point := num * i.den
  let right := i.high * den
  if i.closed then left ≤ point && point ≤ right else left < point && point < right

/-- The interval of a finite number above zero. The gap below a power of two is half the gap
above. -/
private def interval (x : Binary64) : Interval :=
  let step := Binary64.up x.exponent
  let m := x.significand
  let below := if m = 0x10000000000000 && x.exponent != -1074 then 1 else 2
  { value := 4 * m * step
    low := (4 * m - below) * step
    high := (4 * m + 2) * step
    den := 4 * x.denominator
    closed := m % 2 == 0 }

/-- The power of ten of the first digit of `num / den`. -/
private def leadingPower (num den : Nat) : Int :=
  let guess := ((num.log2 : Int) - den.log2) * 30103 / 100000
  let reached (k : Int) : Bool := den * tenUp k ≤ num * tenDown k
  if reached (guess + 1) then guess + 1
  else if reached guess then guess
  else if reached (guess - 1) then guess - 1
  else guess - 2

/-- The best point of the grid `10 ^ power` for the number, if one of its two neighbours there reads
back. Of two equally near the even one is taken, or the upper one if `tieUp`. -/
private def onGrid (tieUp : Bool) (i : Interval) (power : Int) : Option Nat :=
  let num := i.value * tenDown power
  let den := i.den * tenUp power
  let lower := num / den
  let upper := lower + 1
  let reads (n : Nat) : Bool := i.contains (n * tenUp power) (tenDown power)
  match reads lower && lower != 0, reads upper with
  | false, false => none
  | true, false => some lower
  | false, true => some upper
  | true, true =>
    let rest := 2 * (num % den)
    if rest < den then some lower
    else if den < rest then some upper
    else if tieUp || lower % 2 == 1 then some upper
    else some lower

/-- The first grid with a hit, from `n` digits on; the last, with `fuel` grids to go, is taken
as it is. -/
private def search (tieUp : Bool) (i : Interval) (lead : Int) : Nat → Nat → Shortest
  | 0, n => ⟨i.value * tenDown (lead - n + 1) / (i.den * tenUp (lead - n + 1)), lead - n + 1⟩
  | fuel + 1, n =>
    match onGrid tieUp i (lead - n + 1) with
    | some digits => ⟨digits, lead - n + 1⟩
    | none => search tieUp i lead fuel (n + 1)

/-- The shortest digits of a finite number other than zero. -/
def of (tieUp : Bool) (x : Binary64) : Shortest :=
  let i := interval x
  search tieUp i (leadingPower i.value i.den) 17 1

end Shortest

/-- How a decimal number is laid out: for which powers of its first digit the point is written
in place, whether a positive exponent has a sign, and which of two equally near digit strings is
written. -/
structure DecimalLayout where
  smallestPlain : Int
  largestPlain : Int
  plusSign : Bool
  tieUp : Bool

namespace DecimalLayout

/-- Digits without the zeros at their end. -/
private def significant (digits : List Char) : List Char :=
  (digits.reverse.dropWhile (· == '0')).reverse

/-- A number with the point in place, and at least one digit on either side of it. -/
private def plain (digits : List Char) (power : Int) : List Char :=
  if power < 0 then
    ['0', '.'] ++ List.replicate (-power - 1).toNat '0' ++ digits
  else
    let size := power.toNat + 1
    let whole := digits.take size ++ List.replicate (size - digits.length) '0'
    let fraction := digits.drop size
    whole ++ '.' :: (if fraction.isEmpty then ['0'] else fraction)

/-- A number as one digit, a fraction if there is one, and an exponent. -/
private def scientific (plusSign : Bool) (digits : List Char) (power : Int) : List Char :=
  let fraction := digits.drop 1
  let mantissa := digits.take 1 ++ (if fraction.isEmpty then [] else '.' :: fraction)
  let sign := if power < 0 then ['-'] else if plusSign then ['+'] else []
  mantissa ++ 'e' :: sign ++ Nat.toDigits 10 power.natAbs

def text (layout : DecimalLayout) (x : Binary64) : String :=
  let body :=
    if x.isNaN then "NaN".toList
    else if x.isInfinite then "inf".toList
    else if x.isZero then "0.0".toList
    else
      let s := Shortest.of layout.tieUp x
      let all := Nat.toDigits 10 s.digits
      let power := s.exponent + all.length - 1
      let digits := significant all
      if layout.smallestPlain ≤ power && power ≤ layout.largestPlain then plain digits power
      else scientific layout.plusSign digits power
  String.ofList (if x.isNegative && !x.isNaN then '-' :: body else body)

end DecimalLayout
end ScriptHost
