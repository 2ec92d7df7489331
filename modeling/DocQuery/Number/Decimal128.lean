import DocQuery.Number.Numeral

/-!
# Decimal numbers of 128 bits

A finite decimal is a coefficient of at most 34 digits times a power of ten, and both parts count:
`1.5` and `1.50` are two numbers. `Decimal128.read` accepts a text only if no digit of it is lost.
-/

namespace DocQuery

/-- A decimal number without its sign. -/
inductive DecimalSize where
  | finite (coefficient : Nat) (exponent : Int)
  | infinite
  | nan (signalling : Bool)
deriving DecidableEq

structure Decimal128 where
  negative : Bool
  size : DecimalSize
deriving DecidableEq

namespace Decimal128

/-- The number of digits that a coefficient may have. -/
def maxDigits : Nat := 34

def leastExponent : Int := -6176

def greatestExponent : Int := 6111

/-- The first `keep` digits, if the others are zeros. -/
def cutZeros (keep : Nat) (digits : List Char) : Option (List Char) :=
  if (digits.drop keep).all (· == '0') then some (digits.take keep) else none

/-- Digits without the zeros in front, at least one. -/
def significant (digits : List Char) : List Char :=
  match digits.dropWhile (· == '0') with
  | [] => ['0']
  | rest => rest

/-- Digits that fit the format: zeros at the end move into the exponent. -/
def fitDigits (digits : List Char) (exponent : Int) : Option (List Char × Int) :=
  if digits.length ≤ maxDigits then some (digits, exponent)
  else (cutZeros maxDigits digits).map fun d => (d, exponent + (digits.length - maxDigits : Nat))

/-- An exponent that fits the format: below the least one zeros are cut off, above the greatest one
zeros are added. Zero itself takes the nearest exponent. -/
def fitExponent (digits : List Char) (exponent : Int) : Option (List Char × Int) :=
  if exponent < leastExponent then
    let lost := (leastExponent - exponent).toNat
    if digits = ['0'] then some (digits, leastExponent)
    else if lost ≤ digits.length then
      (cutZeros (digits.length - lost) digits).map fun d => (d, leastExponent)
    else none
  else if greatestExponent < exponent then
    let added := (exponent - greatestExponent).toNat
    if digits = ['0'] then some (digits, greatestExponent)
    else if digits.length + added ≤ maxDigits then
      some (digits ++ List.replicate added '0', greatestExponent)
    else none
  else some (digits, exponent)

/-- The digits in front of and behind the first point. -/
def splitPoint (cs : List Char) : List Char × List Char :=
  (cs.takeWhile (· != '.'), (cs.dropWhile (· != '.')).drop 1)

/-- A decimal number without sign, in lower case. The point moves the exponent by the number of
characters behind it; that number fits 16 bits, and so does the exponent before and after. A plus
in front of the digits is taken for one of them until they are counted. -/
def readFinite (cs : List Char) : Option DecimalSize := do
  let mantissa := cs.takeWhile (· != 'e')
  let exponent ← match cs.dropWhile (· != 'e') with
    | [] => some 0
    | _ :: tail => Numeral.readInt (twoTo 15) (String.ofList tail)
  let (whole, fraction) := splitPoint mantissa
  let exponent := exponent - fraction.length
  if twoTo 15 ≤ fraction.length || exponent < -(twoTo 15 : Int) then none
  else
    let (digits, exponent) ← fitDigits (significant (whole ++ fraction)) exponent
    let (digits, exponent) ← fitExponent digits exponent
    let coefficient ← Numeral.readNat (twoTo 128) (String.ofList digits)
    some (.finite coefficient exponent)

/-- A decimal number in one of its spellings. -/
def read (s : String) : Option Decimal128 :=
  let (negative, cs) := Numeral.takeSign s.toList
  let word := cs.map Char.toLower
  let size :=
    if word = "nan".toList then some (.nan false)
    else if word = "snan".toList then some (.nan true)
    else if word = "infinity".toList || word = "inf".toList then some .infinite
    else readFinite word
  size.map fun size => ⟨negative, size⟩

/-- The text of a finite number: positional if its exponent is not positive and at most five zeros
follow the point, else with an exponent behind the first digit. -/
def finiteText (coefficient : Nat) (exponent : Int) : List Char :=
  let digits := Nat.toDigits 10 coefficient
  let leading := exponent + digits.length - 1
  if exponent = 0 then digits
  else if exponent < 0 && -6 ≤ leading then
    let places := (-exponent).toNat
    if digits.length ≤ places then
      '0' :: '.' :: List.replicate (places - digits.length) '0' ++ digits
    else digits.take (digits.length - places) ++ '.' :: digits.drop (digits.length - places)
  else
    digits.take 1 ++ (if digits.length ≤ 1 then [] else '.' :: digits.drop 1) ++
      'E' :: (if 0 < leading then ['+'] else if leading < 0 then ['-'] else []) ++
      Nat.toDigits 10 leading.natAbs

def text (d : Decimal128) : String :=
  let sign := if d.negative then ['-'] else []
  match d.size with
  | .nan _ => "NaN"
  | .infinite => String.ofList (sign ++ "Infinity".toList)
  | .finite coefficient exponent => String.ofList (sign ++ finiteText coefficient exponent)

end Decimal128

end DocQuery
