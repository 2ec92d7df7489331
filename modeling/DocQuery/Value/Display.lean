import DocQuery.Number.Shortest
import DocQuery.Value.Basic

/-!
# Values inside messages

One line of text for a value. Texts are quoted without escapes, numbers are written without an
exponent, and whole numbers look alike whatever their kind. Of code with a scope only the code is
written.
-/

namespace DocQuery

/-- How a message writes a number: all digits, and no point behind a whole number. -/
def Double.plainLayout : Layout := ⟨.up, none, false⟩

/-- The text of a number inside a message. -/
def Double.display (x : Double) : String :=
  if x.isNaN then "NaN"
  else if x.isInfinite then (if x.isNegative then "-inf" else "inf")
  else String.ofList (x.text plainLayout)

namespace Value

mutual

/-- The text of a value inside a message. -/
def display : Value → String
  | .null => "null"
  | .undefined => "undefined"
  | .minKey => "MinKey"
  | .maxKey => "MaxKey"
  | .boolean b => if b then "true" else "false"
  | .int32 n => toString n.toInt
  | .int64 n => toString n.toInt
  | .double x => x.display
  | .decimal d => d.text
  | .string s => "\"" ++ s ++ "\""
  | .symbol s => "Symbol(\"" ++ s ++ "\")"
  | .code s => s
  | .codeWithScope s _ => s
  | .document [] => "\x7b\x7d"
  | .document (field :: rest) => "\x7b " ++ displayFields true (field :: rest) ++ " \x7d"
  | .array items => "[" ++ displayItems true items ++ "]"
  | .objectId id => "ObjectId(\"" ++ id.text ++ "\")"
  | .date t => "DateTime(\"" ++ t.display ++ "\")"
  | .regex pattern options => "/" ++ pattern ++ "/" ++ options
  | .timestamp time increment =>
    "Timestamp(" ++ toString time.toNat ++ ", " ++ toString increment.toNat ++ ")"
  | .binary subtype bytes =>
    "Binary(0x" ++ String.ofList (Nat.toDigits 16 subtype.toNat) ++ ", " ++
      String.ofList (Text.base64OfBytes bytes) ++ ")"
  | .dbPointer collection id => "DbPointer(" ++ collection ++ ", " ++ id.text ++ ")"

/-- Fields with a comma in front of each but the first. -/
def displayFields (first : Bool) : List (String × Value) → String
  | [] => ""
  | (key, value) :: rest =>
    (if first then "" else ", ") ++ "\"" ++ key ++ "\": " ++ value.display ++
      displayFields false rest

def displayItems (first : Bool) : List Value → String
  | [] => ""
  | item :: rest => (if first then "" else ", ") ++ item.display ++ displayItems false rest

end

end Value

end DocQuery
