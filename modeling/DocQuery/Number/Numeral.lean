import DocQuery.Number.Double

/-!
# Numbers written as text

`readInt` and `readNat` read whole numbers: an optional sign, then digits and nothing else.
`readDouble` reads a number with a fraction and an exponent, both optional, or one of the words for
infinity and for no number, and rounds it to the nearest number of the 64-bit format.
-/

namespace DocQuery.Numeral

/-- The number that a list of digits means, after `start`. -/
def valueFrom (start : Nat) (digits : List Char) : Nat :=
  digits.foldl (fun n c => 10 * n + (c.toNat - 48)) start

def value (digits : List Char) : Nat := valueFrom 0 digits

/-- At least one character, and all are digits. -/
def isDigits (cs : List Char) : Bool := !cs.isEmpty && cs.all Char.isDigit

/-- A natural number below `bound`; a plus in front is allowed. -/
def readNat (bound : Nat) (s : String) : Option Nat :=
  let digits := match s.toList with
    | '+' :: rest => rest
    | cs => cs
  if isDigits digits && value digits < bound then some (value digits) else none

/-- A sign, if there is one: whether it is a minus, and what follows. -/
def takeSign : List Char → Bool × List Char
  | '-' :: rest => (true, rest)
  | '+' :: rest => (false, rest)
  | cs => (false, cs)

/-- A whole number from `-bound` up to below `bound`. -/
def readInt (bound : Nat) (s : String) : Option Int :=
  let (negative, digits) := takeSign s.toList
  if !isDigits digits then none else
    let n : Int := if negative then -(value digits : Int) else value digits
    if -(bound : Int) ≤ n && n < bound then some n else none

/-- A 64-bit whole number with a sign. -/
def readInt64 (s : String) : Option Int64 := (readInt (twoTo 63) s).map Int64.ofInt

/-- A 64-bit whole number without a sign. -/
def readUInt64 (s : String) : Option UInt64 := (readNat (twoTo 64) s).map UInt64.ofNat

/-- The exponent behind an `e`: an optional sign and at least one digit. -/
def readExponent (cs : List Char) : Option Int :=
  let (negative, digits) := takeSign cs
  if isDigits digits then some (if negative then -(value digits : Int) else value digits) else none

/-- The number `digits * 10 ^ exponent`. Far outside the range of the format the answer is known
without the power. -/
def scaled (negative : Bool) (digits : Nat) (exponent : Int) : Double :=
  if digits = 0 then Double.zero negative
  else if 400 < exponent then Double.infinity negative
  else if exponent < -(400 + digits.log2 : Int) then Double.zero negative
  else Double.ofDecimal negative digits exponent

/-- A number without sign: digits, a point and more digits, an exponent. There is a digit before or
behind the point. -/
def readUnsigned (negative : Bool) (cs : List Char) : Option Double :=
  let whole := cs.takeWhile Char.isDigit
  let afterWhole := cs.dropWhile Char.isDigit
  let (fraction, rest) := match afterWhole with
    | '.' :: tail => (tail.takeWhile Char.isDigit, tail.dropWhile Char.isDigit)
    | _ => ([], afterWhole)
  if whole.isEmpty && fraction.isEmpty then none else
    let exponent := match rest with
      | [] => some 0
      | e :: tail => if e = 'e' || e = 'E' then readExponent tail else none
    exponent.map fun e => scaled negative (value (whole ++ fraction)) (e - fraction.length)

/-- A number in any of its spellings. -/
def readDouble (s : String) : Option Double :=
  let (negative, cs) := takeSign s.toList
  let word := cs.map Char.toLower
  if word = "inf".toList || word = "infinity".toList then some (Double.infinity negative)
  else if word = "nan".toList then some (if negative then Double.nan.negate else Double.nan)
  else readUnsigned negative cs

end DocQuery.Numeral
