import DocQuery.Json.Basic

/-!
# Writing JSON

`Json.compact` writes a value without blanks, `Json.pretty` with one item a line and two spaces for
each level.
-/

namespace DocQuery.Json

/-- Four digits in base sixteen. -/
def hex4 (n : Nat) : List Char :=
  let digits := Nat.toDigits 16 n
  List.replicate (4 - digits.length) '0' ++ digits

/-- One character inside a JSON string. -/
def escapeChar (c : Char) : List Char :=
  if c = '"' then ['\\', '"']
  else if c = '\\' then ['\\', '\\']
  else if c = '\n' then ['\\', 'n']
  else if c = '\r' then ['\\', 'r']
  else if c = '\t' then ['\\', 't']
  else if c = '\x08' then ['\\', 'b']
  else if c = '\x0c' then ['\\', 'f']
  else if c.toNat < 32 then '\\' :: 'u' :: hex4 c.toNat
  else [c]

def stringText (s : String) : List Char := '"' :: s.toList.flatMap escapeChar ++ ['"']

/-- The text of a number as a JSON text writes it. -/
def wholeText (n : Int) : List Char :=
  if n < 0 then '-' :: Nat.toDigits 10 n.natAbs else Nat.toDigits 10 n.natAbs

mutual

/-- The characters of a value without blanks. -/
def compactChars : Json → List Char
  | .null => "null".toList
  | .bool b => if b then "true".toList else "false".toList
  | .whole n => wholeText n
  | .real x => x.text numberLayout
  | .string s => stringText s
  | .array items => '[' :: compactItems true items ++ [']']
  | .object members => '\x7b' :: compactMembers true members ++ ['\x7d']

/-- Items with a comma in front of each but the first. -/
def compactItems (first : Bool) : List Json → List Char
  | [] => []
  | item :: rest =>
    (if first then [] else [',']) ++ item.compactChars ++ compactItems false rest

def compactMembers (first : Bool) : List (String × Json) → List Char
  | [] => []
  | (name, value) :: rest =>
    (if first then [] else [',']) ++ stringText name ++ ':' :: value.compactChars ++
      compactMembers false rest

end

/-- The text of a value without blanks. -/
def compact (j : Json) : String := String.ofList j.compactChars

/-- A new line at a level. -/
def newLine (level : Nat) : List Char := '\n' :: List.replicate (2 * level) ' '

mutual

/-- The characters of a value with one item a line, at a level. -/
def prettyChars (level : Nat) : Json → List Char
  | .array [] => ['[', ']']
  | .array items => '[' :: prettyItems (level + 1) true items ++ newLine level ++ [']']
  | .object [] => ['\x7b', '\x7d']
  | .object members => '\x7b' :: prettyMembers (level + 1) true members ++ newLine level ++ ['\x7d']
  | .null => "null".toList
  | .bool b => if b then "true".toList else "false".toList
  | .whole n => wholeText n
  | .real x => x.text numberLayout
  | .string s => stringText s

def prettyItems (level : Nat) (first : Bool) : List Json → List Char
  | [] => []
  | item :: rest =>
    (if first then [] else [',']) ++ newLine level ++ item.prettyChars level ++
      prettyItems level false rest

def prettyMembers (level : Nat) (first : Bool) : List (String × Json) → List Char
  | [] => []
  | (name, value) :: rest =>
    (if first then [] else [',']) ++ newLine level ++ stringText name ++
      ':' :: ' ' :: value.prettyChars level ++ prettyMembers level false rest

end

/-- The text of a value with one item a line. -/
def pretty (j : Json) : String := String.ofList (j.prettyChars 0)

end DocQuery.Json
