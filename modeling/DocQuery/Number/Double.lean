import DocQuery.Number.Power

/-!
# Numbers in the 64-bit binary format

A `Double` is the word of bits of such a number. Order and equality are read off the bits: without
its sign bit the word grows with the size of the number, so `rank` puts all numbers on one line of
integers. `ofRatio` rounds a quotient of natural numbers to the nearest number of the format, a tie
to the even one; every other conversion is an instance of it.
-/

namespace DocQuery

/-- A number in the 64-bit binary format, by its bits. -/
structure Double where
  bits : UInt64
deriving DecidableEq

namespace Double

/-- The word of the sizes that are infinite; what lies above is no number. -/
def infiniteWord : Nat := 0x7FF0000000000000

/-- The bits without the sign. -/
def sizeWord (x : Double) : Nat := x.bits.toNat % twoTo 63

def isNegative (x : Double) : Bool := twoTo 63 ≤ x.bits.toNat

def isNaN (x : Double) : Bool := infiniteWord < x.sizeWord

def isInfinite (x : Double) : Bool := x.sizeWord == infiniteWord

def isFinite (x : Double) : Bool := x.sizeWord < infiniteWord

/-- The number with these bits for its size and this sign. -/
def ofSize (negative : Bool) (size : Nat) : Double :=
  ⟨UInt64.ofNat (size + if negative then twoTo 63 else 0)⟩

def infinity (negative : Bool) : Double := ofSize negative infiniteWord

def zero (negative : Bool) : Double := ofSize negative 0

/-- The value that is no number. -/
def nan : Double := ofSize false 0x7FF8000000000000

/-- The place of a number on the line of integers; both zeros are at zero. -/
def rank (x : Double) : Int := if x.isNegative then -(x.sizeWord : Int) else x.sizeWord

/-- The order of two numbers; there is none if one of them is no number. -/
def compare? (x y : Double) : Option Ordering :=
  if x.isNaN || y.isNaN then none else some (compare x.rank y.rank)

/-- A finite number is `significand * 2 ^ exponent`, up to its sign. -/
def significand (x : Double) : Nat :=
  if x.sizeWord < twoTo 52 then x.sizeWord else twoTo 52 + x.sizeWord % twoTo 52

/-- See `significand`. -/
def exponent (x : Double) : Int :=
  if x.sizeWord < twoTo 52 then -1074 else (x.sizeWord / twoTo 52 : Nat) - 1075

/-- The quotient rounded to the nearest natural number, a tie to the even one. -/
def roundQuotient (num den : Nat) : Nat :=
  let q := num / den
  let r := num % den
  if den < 2 * r || (2 * r == den && q % 2 == 1) then q + 1 else q

/-- The quotient `num / den` in units of `2 ^ exponent`, as a quotient again. -/
def inUnits (num den : Nat) (exponent : Int) : Nat × Nat :=
  if 0 ≤ exponent then (num, den * twoTo exponent.toNat)
  else (num * twoTo (-exponent).toNat, den)

/-- The exponent at which the integer part of `num / den` has 53 bits, but never below the least
exponent of the format. -/
def unitExponent (num den : Nat) : Int :=
  let guess : Int := (num.log2 : Int) - den.log2 - 52
  let (n, d) := inUnits num den guess
  max (-1074) (if n / d < twoTo 52 then guess - 1 else guess)

/-- The number of the format nearest to `num / den`, a tie to the one with an even significand.
Sizes beyond the largest number become infinite. -/
def ofRatio (negative : Bool) (num den : Nat) : Double :=
  if num = 0 then zero negative else
    let e := unitExponent num den
    let (n, d) := inUnits num den e
    ofSize negative (min infiniteWord ((e + 1074).toNat * twoTo 52 + roundQuotient n d))

def ofInt (n : Int) : Double := ofRatio (n < 0) n.natAbs 1

def ofNat (n : Nat) : Double := ofInt n

/-- The size of a finite number as a quotient. -/
def ratio (x : Double) : Nat × Nat :=
  if 0 ≤ x.exponent then (x.significand * twoTo x.exponent.toNat, 1)
  else (x.significand, twoTo (-x.exponent).toNat)

/-- The number of the format nearest to `digits * 10 ^ exponent`, with a sign. -/
def ofDecimal (negative : Bool) (digits : Nat) (exponent : Int) : Double :=
  if 0 ≤ exponent then ofRatio negative (digits * tenTo exponent.toNat) 1
  else ofRatio negative digits (tenTo (-exponent).toNat)

/-- The size of a finite number that is a natural number. -/
def toNat? (x : Double) : Option Nat :=
  if !x.isFinite then none else
    let (n, d) := x.ratio
    if n % d = 0 then some (n / d) else none

def negate (x : Double) : Double := ofSize (!x.isNegative) x.sizeWord

/-- The product, rounded; both factors are finite. -/
def mul (x y : Double) : Double :=
  let (a, b) := x.ratio
  let (c, d) := y.ratio
  ofRatio (x.isNegative != y.isNegative) (a * c) (b * d)

/-- The quotient, rounded; both are finite and the divisor is not zero. -/
def div (x y : Double) : Double :=
  let (a, b) := x.ratio
  let (c, d) := y.ratio
  ofRatio (x.isNegative != y.isNegative) (a * d) (b * c)

end Double

end DocQuery
