import DocQuery.Extended.Reader

/-!
# Values written in JSON: writing

`Extended.json` writes a value so that it can be read by people: numbers and the dates of common
years plainly, everything else that JSON lacks as an object with one member; code has its scope beside it.
-/

namespace DocQuery.Extended

/-- An object with one member. -/
def object (name : String) (body : Json) : Json := .object [(name, body)]

/-- A number of the binary format; what is not finite has no digits. -/
def doubleJson (x : Double) : Json :=
  if x.isFinite then .real x
  else
    let word := if x.isNaN then "NaN" else "Infinity"
    object "$numberDouble" (.string (if x.isNegative then "-" ++ word else word))

/-- The last year whose dates are written as text. -/
def lastPlainYear : Int := 9999

/-- A date; as text if it lies between 1970 and the last year with four digits. -/
def dateJson (t : Instant) : Json :=
  let milliseconds := t.milliseconds.toInt
  object "$date" <|
    if 0 ≤ milliseconds && t.parts.year ≤ lastPlainYear then .string t.text
    else object "$numberLong" (.string (toString milliseconds))

mutual

/-- A value as a JSON value. -/
def json : Value → Json
  | .null => .null
  | .undefined => object "$undefined" (.bool true)
  | .minKey => object "$minKey" (.whole 1)
  | .maxKey => object "$maxKey" (.whole 1)
  | .boolean b => .bool b
  | .int32 n => .whole n.toInt
  | .int64 n => .whole n.toInt
  | .double x => doubleJson x
  | .decimal d => object "$numberDecimal" (.string d.text)
  | .string s => .string s
  | .symbol s => object "$symbol" (.string s)
  | .code s => object "$code" (.string s)
  | .codeWithScope s scope =>
    .object [("$code", .string s), ("$scope", .object (members scope))]
  | .document fields => .object (members fields)
  | .array values => .array (items values)
  | .objectId id => object "$oid" (.string id.text)
  | .date t => dateJson t
  | .regex pattern options =>
    object "$regularExpression"
      (.object [("pattern", .string pattern), ("options", .string (sortedOptions options))])
  | .timestamp time increment =>
    object "$timestamp" (.object [("t", .whole time.toNat), ("i", .whole increment.toNat)])
  | .binary subtype bytes =>
    object "$binary" (.object [
      ("base64", .string (String.ofList (Text.base64OfBytes bytes))),
      ("subType", .string (String.ofList (Text.hexOfBytes [subtype])))])
  | .dbPointer collection id =>
    object "$dbPointer"
      (.object [("$ref", .string collection), ("$id", object "$oid" (.string id.text))])

def items : List Value → List Json
  | [] => []
  | value :: rest => json value :: items rest

def members : List (String × Value) → List (String × Json)
  | [] => []
  | (key, value) :: rest => (key, json value) :: members rest

end

/-- Documents as a JSON array. -/
def documents (docs : List Document) : Json := .array (docs.map fun doc => .object (members doc))

end DocQuery.Extended
