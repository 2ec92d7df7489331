import DocQuery.Json.Basic
import DocQuery.StableSort
import DocQuery.Text.Hex
import DocQuery.Value.Basic

/-!
# Values written in JSON: reading

JSON has no object ids, dates and the like. Such a value is written as an object with one member,
whose name starts with a dollar sign and says what it is; only code can have its scope beside it.
`Extended.value?` is the value that a JSON value stands for; every other object is a document.
-/

namespace DocQuery.Extended

/-- The names that say what an object is. -/
def markers : List String := [
  "$oid", "$symbol", "$regularExpression", "$numberInt", "$numberLong", "$numberDouble",
  "$numberDecimal", "$binary", "$uuid", "$code", "$timestamp", "$date", "$minKey", "$maxKey",
  "$dbPointer", "$undefined"]

/-- A number of the smallest kind that holds it. -/
def wholeNumber (n : Int) : Value :=
  if -(twoTo 31 : Int) ≤ n && n < twoTo 31 then .int32 (Int32.ofInt n)
  else if -(twoTo 63 : Int) ≤ n && n < twoTo 63 then .int64 (Int64.ofInt n)
  else .double (Double.ofInt n)

/-! ### The bodies of marked objects -/

/-- The values of two names, which are all that an object has; an array gives them in this order. -/
def pair? (first second : String) : Json → Option (Json × Json)
  | .object [(k, a), (l, b)] =>
    if k = first && l = second then some (a, b)
    else if k = second && l = first then some (b, a)
    else none
  | .array [a, b] => some (a, b)
  | _ => none

def text? : Json → Option String
  | .string s => some s
  | _ => none

/-- A number of 32 bits without a sign. -/
def word? : Json → Option UInt32
  | .whole n => if 0 ≤ n && n < twoTo 32 then some (UInt32.ofNat n.toNat) else none
  | _ => none

/-- Options in the order of their characters. -/
def sortedOptions (options : String) : String :=
  String.ofList (insertionSort (fun a b => compare a.toNat b.toNat) options.toList)

def regex? (body : Json) : Option Value := do
  let (pattern, options) ← pair? "pattern" "options" body
  some (.regex (← text? pattern) (sortedOptions (← text? options)))

def binary? (body : Json) : Option Value := do
  let (base64, subtype) ← pair? "base64" "subType" body
  let bytes ← Text.bytesOfBase64? (← text? base64).toList
  match ← Text.bytesOfHex? (← text? subtype).toList with
  | [subtype] => some (.binary subtype bytes)
  | _ => none

def timestamp? (body : Json) : Option Value := do
  let (time, increment) ← pair? "t" "i" body
  some (.timestamp (← word? time) (← word? increment))

/-- The digits of a unique id with hyphens between its groups. -/
def hyphenated? (cs : List Char) : Option (List Char) :=
  match cs.splitOn '-' with
  | [a, b, c, d, e] =>
    if [a, b, c, d, e].map List.length = [8, 4, 4, 4, 12] then some (a ++ b ++ c ++ d ++ e)
    else none
  | _ => none

/-- The digits of a unique id: alone, or with hyphens, and then also in braces or behind a scheme,
whose case does not count. -/
def uuidDigits? (cs : List Char) : Option (List Char) :=
  if cs.length = 32 then some cs
  else if cs.length = 38 && cs.head? = some '\x7b' && cs.getLast? = some '\x7d' then
    hyphenated? (cs.drop 1).dropLast
  else if (cs.take 9).map Char.toLower = "urn:uuid:".toList then hyphenated? (cs.drop 9)
  else hyphenated? cs

def uuid? (s : String) : Option Value := do
  let bytes ← Text.bytesOfHex? (← uuidDigits? s.toList)
  some (.binary 4 bytes)

def number? (s : String) : Option Double :=
  if s = "Infinity" then some (Double.infinity false)
  else if s = "-Infinity" then some (Double.infinity true)
  else if s = "NaN" then some Double.nan
  else Numeral.readDouble s

/-- An object id as an object with its digits, or as an array with them. -/
def objectId? : Json → Option ObjectId
  | .object [("$oid", .string s)] => ObjectId.read s
  | .array [.string s] => ObjectId.read s
  | _ => none

def dbPointer? (body : Json) : Option Value := do
  let (collection, id) ← pair? "$ref" "$id" body
  some (.dbPointer (← text? collection) (← objectId? id))

/-- The milliseconds of a date as a text inside of an object, alone, or a date as a text. -/
def date? : Json → Option Value
  | .string s => (Instant.read s).map .date
  | .whole n => if -(twoTo 63 : Int) ≤ n && n < twoTo 63 then some (.date ⟨Int64.ofInt n⟩) else none
  | .object [("$numberLong", .string s)] => (Numeral.readInt64 s).map fun n => .date ⟨n⟩
  | .array [.string s] => (Numeral.readInt64 s).map fun n => .date ⟨n⟩
  | _ => none

/-- The value of an object with one member whose name is a marker. -/
def marked? (marker : String) (body : Json) : Option Value :=
  match marker, body with
  | "$oid", .string s => (ObjectId.read s).map .objectId
  | "$symbol", .string s => some (.symbol s)
  | "$regularExpression", body => regex? body
  | "$numberInt", .string s => (Numeral.readInt (twoTo 31) s).map fun n => .int32 (Int32.ofInt n)
  | "$numberLong", .string s => (Numeral.readInt64 s).map .int64
  | "$numberDouble", .string s => (number? s).map .double
  | "$numberDecimal", .string s => (Decimal128.read s).map .decimal
  | "$binary", body => binary? body
  | "$uuid", .string s => uuid? s
  | "$code", .string s => some (.code s)
  | "$timestamp", body => timestamp? body
  | "$date", body => date? body
  | "$minKey", .whole n => if n = 1 then some .minKey else none
  | "$maxKey", .whole n => if n = 1 then some .maxKey else none
  | "$dbPointer", body => dbPointer? body
  | "$undefined", .bool b => if b then some .undefined else none
  | _, _ => none

/-! ### Whole values -/

/-- An object with a marker has no other member, unless it is code, whose scope may be null. -/
def onlyMarked? : List (String × Json) → Option Value
  | [(marker, body)] => marked? marker body
  | [("$code", body), ("$scope", .null)] => marked? "$code" body
  | [("$scope", .null), ("$code", body)] => marked? "$code" body
  | _ => none

mutual

/-- The value that a JSON value stands for. -/
def value? : Json → Option Value
  | .null => some .null
  | .bool b => some (.boolean b)
  | .whole n => some (wholeNumber n)
  | .real x => some (.double x)
  | .string s => some (.string s)
  | .array items => (items? items).map .array
  | .object [("$code", .string code), ("$scope", .object scope)] =>
    (fields? scope).map (.codeWithScope code)
  | .object [("$scope", .object scope), ("$code", .string code)] =>
    (fields? scope).map (.codeWithScope code)
  | .object members =>
    if members.any fun member => markers.contains member.1 then onlyMarked? members
    else (fields? members).map .document

def items? : List Json → Option (List Value)
  | [] => some []
  | item :: rest => do
    let value ← value? item
    let values ← items? rest
    some (value :: values)

def fields? : List (String × Json) → Option (List (String × Value))
  | [] => some []
  | (name, item) :: rest => do
    let value ← value? item
    let fields ← fields? rest
    some ((name, value) :: fields)

end

end DocQuery.Extended
