import DocQuery.Json.Form
import DocQuery.Number.Numeral

/-!
# Reading JSON

`Json.readForm` accepts exactly one value with blanks around it, `Json.read` only if it means
something. A number with a fraction or an exponent is read in two steps: as many digits as fit 64
bits become a number of the 64-bit binary format, and that is multiplied or divided by the power of
ten.
-/

namespace DocQuery.Json

def isBlank (c : Char) : Bool := c = ' ' || c = '\n' || c = '\t' || c = '\r'

def skipBlanks (cs : List Char) : List Char := cs.dropWhile isBlank

/-! ### Strings -/

def hexValue (c : Char) : Option Nat :=
  if '0' ≤ c && c ≤ '9' then some (c.toNat - 48)
  else if 'a' ≤ c && c ≤ 'f' then some (c.toNat - 87)
  else if 'A' ≤ c && c ≤ 'F' then some (c.toNat - 55)
  else none

/-- A number of four digits in base sixteen, and what follows it. -/
def readHex4 : List Char → Option (Nat × List Char)
  | a :: b :: c :: d :: rest => do
    let a ← hexValue a
    let b ← hexValue b
    let c ← hexValue c
    let d ← hexValue d
    some (((a * 16 + b) * 16 + c) * 16 + d, rest)
  | _ => none

/-- What a string is made of: characters, and units of 16 bits that escapes name. -/
inductive Sign where
  | char (c : Char)
  | unit (n : Nat)

/-- The sign that stands behind a backslash. -/
def readEscape : List Char → Option (Sign × List Char)
  | '"' :: rest => some (.char '"', rest)
  | '\\' :: rest => some (.char '\\', rest)
  | '/' :: rest => some (.char '/', rest)
  | 'b' :: rest => some (.char '\x08', rest)
  | 'f' :: rest => some (.char '\x0c', rest)
  | 'n' :: rest => some (.char '\n', rest)
  | 'r' :: rest => some (.char '\r', rest)
  | 't' :: rest => some (.char '\t', rest)
  | 'u' :: rest => (readHex4 rest).map fun (n, rest) => (.unit n, rest)
  | _ => none

def isHighUnit (n : Nat) : Bool := 0xD800 ≤ n && n < 0xDC00

def isLowUnit (n : Nat) : Bool := 0xDC00 ≤ n && n < 0xE000

/-- The character of a pair of units; one beyond the first 65536 is written like this. -/
def pairedChar (high low : Nat) : Char :=
  Char.ofNat (0x10000 + (high - 0xD800) * 0x400 + (low - 0xDC00))

/-- The characters that signs mean; half a pair of units means nothing. -/
def decode : List Sign → Option (List Char)
  | [] => some []
  | .char c :: rest => (decode rest).map (c :: ·)
  | .unit high :: .unit low :: rest =>
    if isHighUnit high then
      if isLowUnit low then (decode rest).map (pairedChar high low :: ·) else none
    else if isLowUnit high then none
    else (decode (.unit low :: rest)).map (Char.ofNat high :: ·)
  | .unit n :: rest =>
    if isHighUnit n || isLowUnit n then none else (decode rest).map (Char.ofNat n :: ·)

/-- The rest of a string behind its opening quote. `done` holds what was read, last sign first; each
step takes one from `fuel`, and at least one character from the text. -/
def readSigns (done : List Sign) : Nat → List Char → Option (List Sign × List Char)
  | 0, _ => none
  | fuel + 1, cs =>
    match cs with
    | [] => none
    | '"' :: rest => some (done.reverse, rest)
    | '\\' :: rest =>
      match readEscape rest with
      | none => none
      | some (sign, rest) => readSigns (sign :: done) fuel rest
    | c :: rest => if c.toNat < 32 then none else readSigns (.char c :: done) fuel rest

/-- A string and what follows it; the string may mean nothing. -/
def readString (cs : List Char) : Option (Option String × List Char) :=
  (readSigns [] (cs.length + 1) cs).map fun (signs, rest) =>
    ((decode signs).map String.ofList, rest)

/-! ### Numbers -/

/-- The greatest number that 64 bits hold. -/
def greatestWord : Nat := twoTo 64 - 1

/-- Digits taken into a number as long as it fits 64 bits, and the digits left over. -/
def absorb (n : Nat) : List Char → Nat × List Char
  | [] => (n, [])
  | c :: rest =>
    let next := 10 * n + (c.toNat - 48)
    if greatestWord < next then (n, c :: rest) else absorb next rest

/-- The number of the format that is nearest to a power of ten. -/
def powerOfTen (exponent : Nat) : Double := Double.ofRatio false (tenTo exponent) 1

/-- A number of the format times a power of ten, rounded at each step; none if it is too large. An
exponent below `-308` takes more than one division, of which `fuel` is the most. -/
def scale : Nat → Double → Int → Option Double
  | 0, _, _ => some (Double.zero false)
  | fuel + 1, x, exponent =>
    if exponent.natAbs ≤ 308 then
      if 0 ≤ exponent then
        let product := x.mul (powerOfTen exponent.toNat)
        if product.isFinite then some product else none
      else some (x.div (powerOfTen exponent.natAbs))
    else if x.sizeWord = 0 then some x
    else if 0 ≤ exponent then none
    else scale fuel (x.div (powerOfTen 308)) (exponent + 308)

/-- The parts of a number as it is written; `none` for a part that is not there. -/
structure Written where
  negative : Bool
  digits : List Char
  fraction : Option (List Char)
  exponent : Option Int

/-- The number that is meant; none if it is too large for the format. -/
def Written.meaning (w : Written) : Option Json :=
  let (n, surplus) := absorb 0 w.digits
  let signed (x : Double) : Json := .real (if w.negative then x.negate else x)
  if surplus.isEmpty && w.fraction.isNone && w.exponent.isNone then
    if !w.negative then some (.whole n)
    else if 0 < n && n ≤ twoTo 63 then some (.whole (-(n : Int)))
    else some (signed (Double.ofNat n))
  else
    let fraction := w.fraction.getD []
    let (n, unused) := absorb n fraction
    let places : Int := (surplus.length : Int) - (fraction.length - unused.length : Nat)
    (scale 4 (Double.ofNat n) (places + w.exponent.getD 0)).map signed

/-- The digits in front, and what follows them. -/
def takeDigits (cs : List Char) : List Char × List Char :=
  (cs.takeWhile Char.isDigit, cs.dropWhile Char.isDigit)

/-- The whole part: a zero alone, or digits that begin with another one. -/
def readWhole (cs : List Char) : Option (List Char × List Char) :=
  match takeDigits cs with
  | ([], _) => none
  | ('0' :: _ :: _, _) => none
  | found => some found

/-- The part behind a point, with at least one digit. -/
def readFraction : List Char → Option (Option (List Char) × List Char)
  | '.' :: rest =>
    let (digits, rest) := takeDigits rest
    if digits.isEmpty then none else some (some digits, rest)
  | cs => some (none, cs)

/-- The exponent, with at least one digit. -/
def readExponent : List Char → Option (Option Int × List Char)
  | [] => some (none, [])
  | e :: rest =>
    if e = 'e' || e = 'E' then
      let (negative, rest) := Numeral.takeSign rest
      let (digits, rest) := takeDigits rest
      let n : Int := Numeral.value digits
      if digits.isEmpty then none else some (some (if negative then -n else n), rest)
    else some (none, e :: rest)

/-- A number and what follows it; the number may be too large. -/
def readNumber (cs : List Char) : Option (Option Json × List Char) := do
  let (negative, cs) := match cs with
    | '-' :: rest => (true, rest)
    | _ => (false, cs)
  let (digits, cs) ← readWhole cs
  let (fraction, cs) ← readFraction cs
  let (exponent, cs) ← readExponent cs
  some (Written.meaning { negative, digits, fraction, exponent }, cs)

/-! ### Values -/

mutual

/-- One value and what follows it. Each call takes one from `fuel`, of which twice the length of the
text is enough. -/
def readValue : Nat → List Char → Option (Form × List Char)
  | 0, _ => none
  | fuel + 1, cs =>
    match skipBlanks cs with
    | 'n' :: 'u' :: 'l' :: 'l' :: rest => some (.null, rest)
    | 't' :: 'r' :: 'u' :: 'e' :: rest => some (.bool true, rest)
    | 'f' :: 'a' :: 'l' :: 's' :: 'e' :: rest => some (.bool false, rest)
    | '"' :: rest => (readString rest).map fun (s, rest) => (.string s, rest)
    | '[' :: rest =>
      match skipBlanks rest with
      | ']' :: rest => some (.array [], rest)
      | rest => (readItems fuel rest).map fun (items, rest) => (.array items, rest)
    | '\x7b' :: rest =>
      match skipBlanks rest with
      | '\x7d' :: rest => some (.object [], rest)
      | rest => (readMembers fuel rest).map fun (ms, rest) => (.object ms, rest)
    | cs => (readNumber cs).map fun (value, rest) => (.number value, rest)

/-- The items of an array up to its closing bracket; there is at least one. -/
def readItems : Nat → List Char → Option (List Form × List Char)
  | 0, _ => none
  | fuel + 1, cs =>
    match readValue fuel cs with
    | none => none
    | some (item, rest) =>
      match skipBlanks rest with
      | ',' :: rest => (readItems fuel rest).map fun (items, rest) => (item :: items, rest)
      | ']' :: rest => some ([item], rest)
      | _ => none

/-- The members of an object up to its closing brace; there is at least one. -/
def readMembers : Nat → List Char → Option (List (Option String × Form) × List Char)
  | 0, _ => none
  | fuel + 1, cs =>
    match skipBlanks cs with
    | '"' :: rest =>
      match readString rest with
      | none => none
      | some (name, rest) =>
        match skipBlanks rest with
        | ':' :: rest =>
          match readValue fuel rest with
          | none => none
          | some (value, rest) =>
            match skipBlanks rest with
            | ',' :: rest =>
              (readMembers fuel rest).map fun (ms, rest) => ((name, value) :: ms, rest)
            | '\x7d' :: rest => some ([(name, value)], rest)
            | _ => none
        | _ => none
    | _ => none

end

/-- The form of a text, if it writes exactly one value. -/
def readForm (s : String) : Option Form :=
  let cs := s.toList
  match readValue (2 * cs.length + 2) cs with
  | some (form, rest) => if (skipBlanks rest).isEmpty then some form else none
  | none => none

/-- The value that a text writes, if it nests at most `limit` deep. -/
def readWithin (limit : Nat) (s : String) : Option Json :=
  (readForm s).bind fun form => form.value? limit

/-- The value that a text writes. -/
def read (s : String) : Option Json := readWithin nestingLimit s

end DocQuery.Json
