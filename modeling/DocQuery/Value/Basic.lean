import DocQuery.Calendar.Instant
import DocQuery.Json.Basic
import DocQuery.Number.Decimal128
import DocQuery.ObjectId

/-!
# Values and documents

A document is a list of fields in their order; a field is a key with a value, and values are
scalars, arrays and documents again. Code can have a scope, a document that its names stand in; to a
store such code is a scalar, no path leads into a scope. The operations below keep the keys of a
document distinct: putting a value under a key that is there changes it in place, a new key comes
last, and erasing a key keeps the order of the others.
-/

namespace DocQuery

/-- A value of a document store. -/
inductive Value where
  | null
  | undefined
  | minKey
  | maxKey
  | boolean (b : Bool)
  | int32 (n : Int32)
  | int64 (n : Int64)
  | double (x : Double)
  | decimal (d : Decimal128)
  | string (s : String)
  | symbol (s : String)
  | code (s : String)
  | codeWithScope (s : String) (scope : List (String × Value))
  | document (fields : List (String × Value))
  | array (items : List Value)
  | objectId (id : ObjectId)
  | date (t : Instant)
  | regex (pattern options : String)
  | timestamp (time increment : UInt32)
  | binary (subtype : UInt8) (bytes : List UInt8)
  /-- a document of a collection by its id -/
  | dbPointer (collection : String) (id : ObjectId)

instance : Inhabited Value := ⟨.null⟩

/-- The fields of a document in their order. -/
abbrev Document := List (String × Value)

namespace Document

/-- The value of a field. -/
def get? (doc : Document) (key : String) : Option Value := doc.lookup key

def contains (doc : Document) (key : String) : Bool := (doc.get? key).isSome

/-- Puts a value under a key: in place, or as the last field. -/
def put (doc : Document) (key : String) (value : Value) : Document := Keyed.put key value doc

/-- A document without one field. -/
def erase (doc : Document) (key : String) : Document := Keyed.erase key doc

/-- The document that has these fields put into it one after the other. -/
def ofFields (fields : List (String × Value)) : Document := Keyed.ofList fields

/-- The text of a field that holds one. -/
def string? (doc : Document) (key : String) : Option String :=
  match doc.get? key with
  | some (.string s) => some s
  | _ => none

def keys (doc : Document) : List String := Keyed.keys doc

end Document

namespace Value

/-- A number that is not a decimal, in the 64-bit binary format. -/
def asDouble? : Value → Option Double
  | .int32 n => some (Double.ofInt n.toInt)
  | .int64 n => some (Double.ofInt n.toInt)
  | .double x => some x
  | _ => none

/-- Whether a value counts as a yes: a true boolean, a number that is not zero, and everything else
but null and undefined. -/
def truthy : Value → Bool
  | .boolean b => b
  | .null => false
  | .undefined => false
  | value =>
    match value.asDouble? with
    | some x => x.sizeWord != 0
    | none => true

/-- A count: a whole number that is not negative. A number of the binary format beyond 64 bits
counts as the greatest one. -/
def asCount? : Value → Option Nat
  | .int32 n => if 0 ≤ n.toInt then some n.toInt.toNat else none
  | .int64 n => if 0 ≤ n.toInt then some n.toInt.toNat else none
  | .double x =>
    if x.isNegative && x.sizeWord != 0 then none
    else x.toNat?.map fun n => min n (twoTo 64 - 1)
  | _ => none

/-- A count as a value of 64 bits; a count that needs more is the greatest one. -/
def ofCount (n : Nat) : Value := .int64 (Int64.ofInt (min n (twoTo 63 - 1) : Nat))

def isArray : Value → Bool
  | .array _ => true
  | _ => false

end Value

end DocQuery
