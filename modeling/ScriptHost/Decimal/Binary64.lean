/-!
# Double-precision numbers

A number is its 64 bits: one for the sign, eleven for the exponent, fifty-two for the fraction. All
arithmetic on it is exact arithmetic on naturals followed by one rounding, to the nearest double and
to the even one of two equally near.

* `nearest` rounds a ratio of naturals. `ofInt`, `times` and `dividedBy` are that rounding of an
  integer, a product and a quotient.
* `truncated` drops the fraction and holds the result inside the signed 64-bit range.
* `same` is the numbers' own equality: both zeros are one number, and no number equals a NaN.
-/
namespace ScriptHost

/-- A double-precision number, given by its bits. -/
structure Binary64 where
  bits : UInt64
  deriving DecidableEq, Repr, Inhabited

namespace Binary64

/-- The bits below the sign, read as a natural. Finite numbers of one sign are ordered by it. -/
def magnitudeBits (x : Binary64) : Nat := x.bits.toNat % 0x8000000000000000

/-- The magnitude bits of the infinities. -/
def infinityBits : Nat := 0x7FF0000000000000

def isNegative (x : Binary64) : Bool := 0x8000000000000000 ≤ x.bits.toNat
def isFinite (x : Binary64) : Bool := x.magnitudeBits < infinityBits
def isInfinite (x : Binary64) : Bool := x.magnitudeBits == infinityBits
def isNaN (x : Binary64) : Bool := infinityBits < x.magnitudeBits
def isZero (x : Binary64) : Bool := x.magnitudeBits == 0

/-- The number with this sign and these magnitude bits. -/
def ofMagnitude (negative : Bool) (magnitude : Nat) : Binary64 :=
  ⟨UInt64.ofNat ((if negative then 0x8000000000000000 else 0) + magnitude)⟩

def zero : Binary64 := ofMagnitude false 0
def infinity (negative : Bool) : Binary64 := ofMagnitude negative infinityBits
def nan : Binary64 := ofMagnitude false (infinityBits + 0x8000000000000)

/-- The same number with the other sign. -/
def opposite (x : Binary64) : Binary64 := ofMagnitude (!x.isNegative) x.magnitudeBits

/-- The integer `m` in the magnitude `m · 2 ^ e` of a finite number. -/
def significand (x : Binary64) : Nat :=
  if x.magnitudeBits < 0x10000000000000 then x.magnitudeBits
    else x.magnitudeBits % 0x10000000000000 + 0x10000000000000

/-- The power `e` in the magnitude `m · 2 ^ e` of a finite number. -/
def exponent (x : Binary64) : Int :=
  if x.magnitudeBits < 0x10000000000000 then -1074
    else (x.magnitudeBits / 0x10000000000000 : Nat) - 1075

/-- `2 ^ e` as a factor of a numerator: one unless `e` is positive. -/
def up (e : Int) : Nat := Nat.pow 2 e.toNat

/-- `2 ^ e` as a factor of a denominator: one unless `e` is negative. -/
def down (e : Int) : Nat := Nat.pow 2 (-e).toNat

/-- The magnitude of a finite number as a ratio. -/
def numerator (x : Binary64) : Nat := x.significand * up x.exponent
def denominator (x : Binary64) : Nat := down x.exponent

/-- A quotient rounded to the nearest integer, a half to the even one. -/
def roundedQuotient (num den : Nat) : Nat :=
  let q := num / den
  let r := num % den
  if den < 2 * r || (2 * r == den && q % 2 == 1) then q + 1 else q

/-- The magnitude bits of the double nearest to `num / den`: the exponent is the one that leaves
53 bits of quotient, but never below that of the smallest numbers, and a carry out of the
rounding runs into the exponent by itself. -/
def nearestBits (num den : Nat) : Nat :=
  let guess : Int := (num.log2 : Int) - den.log2 - 53
  let guess := if 0x20000000000000 ≤ num * down guess / (den * up guess) then guess + 1 else guess
  let e := max guess (-1074)
  let m := roundedQuotient (num * down e) (den * up e)
  min ((e + 1074).toNat * 0x10000000000000 + m) infinityBits

/-- The double nearest to `num / den`, for a positive `den`. -/
def nearest (negative : Bool) (num den : Nat) : Binary64 :=
  ofMagnitude negative (if num = 0 then 0 else nearestBits num den)

/-- The double nearest to an integer. -/
def ofInt (n : Int) : Binary64 := nearest (n < 0) n.natAbs 1

/-- The rounded product of two finite numbers. -/
def times (x y : Binary64) : Binary64 :=
  nearest (x.isNegative != y.isNegative) (x.numerator * y.numerator) (x.denominator * y.denominator)

/-- The rounded quotient of two finite numbers, the second not zero. -/
def dividedBy (x y : Binary64) : Binary64 :=
  nearest (x.isNegative != y.isNegative) (x.numerator * y.denominator) (x.denominator * y.numerator)

/-- The integer part, held between `-2 ^ 63` and `2 ^ 63 - 1`; zero for a NaN. -/
def truncated (x : Binary64) : Int :=
  if x.isNaN then 0
  else
    let whole := if x.isInfinite then 0x8000000000000000 else x.numerator / x.denominator
    if x.isNegative then max (-(whole : Int)) (-0x8000000000000000)
      else min (whole : Int) (0x7FFFFFFFFFFFFFFF)

def same (x y : Binary64) : Bool :=
  !x.isNaN && !y.isNaN && (x == y || (x.isZero && y.isZero))

end Binary64
end ScriptHost
