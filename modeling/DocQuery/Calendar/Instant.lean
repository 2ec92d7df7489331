import DocQuery.Number.Numeral

/-!
# Points in time

An `Instant` counts milliseconds from the start of 1970. Days are counted in the calendar that
repeats every 400 years. `Instant.read` accepts a date with a time and an offset from universal
time, `Instant.text` writes one in universal time.
-/

namespace DocQuery

/-- A point in time: milliseconds since the start of 1970 in universal time. -/
structure Instant where
  milliseconds : Int64
deriving DecidableEq

namespace Calendar

def isLeap (year : Int) : Bool := year % 4 == 0 && (year % 100 != 0 || year % 400 == 0)

/-- The number of days of a month, `1` to `12`. -/
def monthDays (year : Int) (month : Nat) : Nat :=
  if month = 2 then (if isLeap year then 29 else 28)
  else if month = 4 || month = 6 || month = 9 || month = 11 then 30
  else 31

/-- The days from the start of 1970 to a date. The year is taken to begin in March, so that the day
that some years have more is its last one. -/
def dayNumber (year : Int) (month day : Nat) : Int :=
  let y := if month ≤ 2 then year - 1 else year
  let era := y.fdiv 400
  let yearOfEra := y - era * 400
  let shifted : Nat := (month + 9) % 12
  let dayOfYear : Int := ((153 * shifted + 2) / 5 + day - 1 : Nat)
  let dayOfEra := yearOfEra * 365 + yearOfEra / 4 - yearOfEra / 100 + dayOfYear
  era * 146097 + dayOfEra - 719468

/-- The date, as year, month and day, that lies a number of days after the start of 1970. -/
def dateOf (days : Int) : Int × Nat × Nat :=
  let z := days + 719468
  let era := z.fdiv 146097
  let dayOfEra := z - era * 146097
  let yearOfEra := (dayOfEra - dayOfEra / 1460 + dayOfEra / 36524 - dayOfEra / 146096) / 365
  let dayOfYear := dayOfEra - (365 * yearOfEra + yearOfEra / 4 - yearOfEra / 100)
  let shifted := (5 * dayOfYear + 2) / 153
  let day := (dayOfYear - (153 * shifted + 2) / 5 + 1).toNat
  let month := (if shifted < 10 then shifted + 3 else shifted - 9).toNat
  (yearOfEra + era * 400 + (if month ≤ 2 then 1 else 0), month, day)

end Calendar

namespace Instant

/-- The number that exactly `count` digits mean, and what follows them. -/
def readDigits (count : Nat) (cs : List Char) : Option (Nat × List Char) :=
  let digits := cs.take count
  if digits.length = count && digits.all Char.isDigit then
    some (Numeral.value digits, cs.drop count)
  else none

/-- One given character, and what follows it. -/
def expect (c : Char) : List Char → Option (List Char)
  | [] => none
  | d :: rest => if d = c then some rest else none

/-- The fraction of a second in nanoseconds: a point and at least one digit, of which nine count. -/
def readFraction : List Char → Option (Nat × List Char)
  | '.' :: rest =>
    let digits := rest.takeWhile Char.isDigit
    if digits.isEmpty then none
    else some (Numeral.value ((digits ++ List.replicate 9 '0').take 9), rest.dropWhile Char.isDigit)
  | cs => some (0, cs)

/-- The offset from universal time in minutes; nothing follows it. -/
def readOffset : List Char → Option Int
  | ['Z'] => some 0
  | ['z'] => some 0
  | sign :: rest => do
    let (hour, rest) ← readDigits 2 rest
    let rest ← expect ':' rest
    let (minute, rest) ← readDigits 2 rest
    if rest.isEmpty && hour ≤ 23 && minute ≤ 59 then
      if sign = '+' then some (hour * 60 + minute : Nat)
      else if sign = '-' then some (-(hour * 60 + minute : Nat))
      else none
    else none
  | [] => none

/-- The last minute of a month in universal time, the only one that can have a second 60. -/
def isLastMinuteOfMonth (minutes : Int) : Bool :=
  let days := minutes.fdiv 1440
  let (year, month, day) := Calendar.dateOf days
  minutes - days * 1440 == 1439 && day == Calendar.monthDays year month

/-- A date, a character, a time of day with an optional fraction, and an offset. A second 60 stands
for the last nanosecond of second 59; the rest below a millisecond is cut towards 1970. -/
def read (s : String) : Option Instant := do
  let (year, cs) ← readDigits 4 s.toList
  let cs ← expect '-' cs
  let (month, cs) ← readDigits 2 cs
  let cs ← expect '-' cs
  let (day, cs) ← readDigits 2 cs
  let cs ← match cs with
    | c :: rest => if c.toNat < 128 then some rest else none
    | [] => none
  let (hour, cs) ← readDigits 2 cs
  let cs ← expect ':' cs
  let (minute, cs) ← readDigits 2 cs
  let cs ← expect ':' cs
  let (second, cs) ← readDigits 2 cs
  let (nanosecond, cs) ← readFraction cs
  let offset ← readOffset cs
  let dateIsValid := 1 ≤ month && month ≤ 12 && 1 ≤ day && day ≤ Calendar.monthDays year month
  if dateIsValid && hour ≤ 23 && minute ≤ 59 && second ≤ 60 then
    let minutes := Calendar.dayNumber year month day * 1440 + (hour * 60 + minute : Nat) - offset
    if second = 60 && !isLastMinuteOfMonth minutes then none else
      let (second, nanosecond) := if second = 60 then (59, 999999999) else (second, nanosecond)
      let nanoseconds : Int := (minutes * 60 + second) * 1000000000 + nanosecond
      some ⟨Int64.ofInt (nanoseconds.tdiv 1000000)⟩
  else none

/-- A number with at least `width` digits. -/
def padded (width n : Nat) : List Char :=
  let digits := Nat.toDigits 10 n
  List.replicate (width - digits.length) '0' ++ digits

/-- Milliseconds as digits behind a point, without zeros at the end. -/
def fractionDigits (milliseconds : Nat) : List Char :=
  ((padded 3 milliseconds).reverse.dropWhile (· == '0')).reverse

/-- The date and the time of day of an instant. -/
structure Parts where
  year : Int
  month : Nat
  day : Nat
  hour : Nat
  minute : Nat
  second : Nat
  millisecond : Nat

def parts (t : Instant) : Parts :=
  let total := t.milliseconds.toInt
  let days := total.fdiv 86400000
  let rest := (total - days * 86400000).toNat
  let (year, month, day) := Calendar.dateOf days
  { year, month, day
    hour := rest / 3600000
    minute := rest / 60000 % 60
    second := rest / 1000 % 60
    millisecond := rest % 1000 }

/-- An instant of the years 0 to 9999 as `read` reads it, in universal time. -/
def text (t : Instant) : String :=
  let p := t.parts
  let fraction := fractionDigits p.millisecond
  String.ofList <| padded 4 p.year.toNat ++ '-' :: padded 2 p.month ++ '-' :: padded 2 p.day ++
    'T' :: padded 2 p.hour ++ ':' :: padded 2 p.minute ++ ':' :: padded 2 p.second ++
    (if fraction.isEmpty then [] else '.' :: fraction) ++ ['Z']

/-- The years that have a date at all; outside of them an instant shows as its number. -/
def greatestYear : Int := 999999

/-- An instant inside a message: the year has a sign outside of 0 to 9999, the hour is not padded,
and there is always a digit behind the point. -/
def display (t : Instant) : String :=
  let p := t.parts
  if greatestYear < p.year || p.year < -greatestYear then
    toString t.milliseconds.toInt
  else
    let year :=
      if p.year < 0 then '-' :: padded 4 p.year.natAbs
      else if 9999 < p.year then '+' :: padded 4 p.year.natAbs
      else padded 4 p.year.natAbs
    let fraction := fractionDigits p.millisecond
    String.ofList <| year ++ '-' :: padded 2 p.month ++ '-' :: padded 2 p.day ++
      ' ' :: Nat.toDigits 10 p.hour ++ ':' :: padded 2 p.minute ++ ':' :: padded 2 p.second ++
      '.' :: (if fraction.isEmpty then ['0'] else fraction) ++ " +00:00:00".toList

end Instant

end DocQuery
