import DocQuery.Number.Double

/-!
# The shortest decimal of a number

Of all decimals that round to a given number, `Double.shortest` picks those with the fewest digits
and of these the nearest. On the grid of decimals with a given number of digits only the two
neighbours of the number need a look, so the first grid with a neighbour that reads back wins.

`Layout` says how the digits are then written: up to which size without an exponent, whether a
whole number keeps a point, and which way an exact tie goes.
-/

namespace DocQuery

/-- Which of two equally near decimals is taken. -/
inductive Tie where
  | toEven
  | up
deriving DecidableEq

/-- How the digits of a number are laid out. -/
structure Layout where
  tie : Tie
  /-- sizes `d.ddd * 10 ^ e` with `e` in this range are written without an exponent; `none` means
  all -/
  positional : Option (Int × Int)
  /-- a whole number is written with a point and a zero -/
  keepsPoint : Bool

namespace Double

/-- How many digits a natural number has in base ten. -/
def digitCount (n : Nat) : Nat := (Nat.toDigits 10 n).length

/-- The exponent of the leading digit of `num / den`. -/
def leadingExponent (num den : Nat) : Int :=
  if den ≤ num then (digitCount (num / den) : Int) - 1
  else -(digitCount ((den + num - 1) / num - 1) : Int)

/-- The decimals that round to a number lie between `lower / den` and `upper / den`; the ends
belong to them if `closed`. The number itself is `middle / den`. -/
structure Interval where
  lower : Nat
  middle : Nat
  upper : Nat
  den : Nat
  closed : Bool

/-- The interval of a finite number that is not zero. Below a power of two the next number is only
half as far away. -/
def interval (x : Double) : Interval :=
  let m := x.significand
  let below := if x.sizeWord % twoTo 52 = 0 && twoTo 53 ≤ x.sizeWord then 1 else 2
  let unit := x.exponent - 2
  let scale := if 0 ≤ unit then twoTo unit.toNat else 1
  { lower := (4 * m - below) * scale
    middle := 4 * m * scale
    upper := (4 * m + 2) * scale
    den := if 0 ≤ unit then 1 else twoTo (-unit).toNat
    closed := m % 2 == 0 }

/-- Whether `digits * 10 ^ exponent` lies in the interval, compared in natural numbers. -/
def Interval.holds (i : Interval) (digits : Nat) (exponent : Int) : Bool :=
  let value := if 0 ≤ exponent then digits * tenTo exponent.toNat * i.den else digits * i.den
  let scale := if 0 ≤ exponent then 1 else tenTo (-exponent).toNat
  if i.closed then i.lower * scale ≤ value && value ≤ i.upper * scale
  else i.lower * scale < value && value < i.upper * scale

/-- The neighbours of the number on the grid of the multiples of `10 ^ exponent`: the digits of the
lower one, and how the distance to it compares with half of the grid. -/
def Interval.floor (i : Interval) (exponent : Int) : Nat × Ordering :=
  let num := if 0 ≤ exponent then i.middle else i.middle * tenTo (-exponent).toNat
  let den := if 0 ≤ exponent then i.den * tenTo exponent.toNat else i.den
  (num / den, compare (2 * (num % den)) den)

/-- The decimal on one grid, if a neighbour reads back. -/
def Interval.onGrid (i : Interval) (tie : Tie) (exponent : Int) : Option (Nat × Int) :=
  let (low, half) := i.floor exponent
  match i.holds low exponent, i.holds (low + 1) exponent with
  | false, false => none
  | true, false => some (low, exponent)
  | false, true => some (low + 1, exponent)
  | true, true =>
    match half with
    | .lt => some (low, exponent)
    | .gt => some (low + 1, exponent)
    | .eq => some (if tie = .toEven && low % 2 == 0 then low else low + 1, exponent)

/-- The grids are tried from the coarse to the fine one, each ten times finer. -/
def Interval.search (i : Interval) (tie : Tie) : Nat → Int → Nat × Int
  | 0, exponent => ((i.floor exponent).1, exponent)
  | grids + 1, exponent => (i.onGrid tie exponent).getD (i.search tie grids (exponent - 1))

/-- The same decimal without zeros at its end; `fuel` bounds how many are taken off. -/
def stripZeros : Nat → Nat × Int → Nat × Int
  | 0, d => d
  | fuel + 1, (digits, exponent) =>
    if digits % 10 = 0 then stripZeros fuel (digits / 10, exponent + 1) else (digits, exponent)

/-- The shortest decimal `digits * 10 ^ exponent` that reads back as a finite number that is not
zero, without its sign. Seventeen digits always read back. -/
def shortest (tie : Tie) (x : Double) : Nat × Int :=
  let i := x.interval
  stripZeros 20 (i.search tie 17 (leadingExponent i.middle i.den))

/-- Digits without an exponent: `exponent` zeros behind them, or a point inside or in front. -/
def positionalText (keepsPoint : Bool) (digits : List Char) (exponent : Int) : List Char :=
  if 0 ≤ exponent then
    digits ++ List.replicate exponent.toNat '0' ++ if keepsPoint then ['.', '0'] else []
  else
    let places := (-exponent).toNat
    if places < digits.length then
      digits.take (digits.length - places) ++ '.' :: digits.drop (digits.length - places)
    else '0' :: '.' :: List.replicate (places - digits.length) '0' ++ digits

/-- Digits with an exponent: a point behind the first digit, if others follow, and the exponent of
that digit with its sign. -/
def scientificText (digits : List Char) (leading : Int) : List Char :=
  (match digits with
    | [] => []
    | [d] => [d]
    | d :: rest => d :: '.' :: rest) ++
    'e' :: (if leading < 0 then '-' else '+') :: Nat.toDigits 10 leading.natAbs

/-- The text of a finite number. -/
def text (layout : Layout) (x : Double) : List Char :=
  let sign := if x.isNegative then ['-'] else []
  if x.sizeWord = 0 then sign ++ '0' :: (if layout.keepsPoint then ['.', '0'] else []) else
    let (number, exponent) := x.shortest layout.tie
    let digits := Nat.toDigits 10 number
    let leading := exponent + digits.length - 1
    let isPositional := match layout.positional with
      | none => true
      | some (least, greatest) => least ≤ leading && leading ≤ greatest
    sign ++ if isPositional then positionalText layout.keepsPoint digits exponent
      else scientificText digits leading

end Double

end DocQuery
