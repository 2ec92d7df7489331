import DocQuery.Value.Basic

/-!
# Equality of values

`Value.same` is equality inside of documents: the order of keys does not count, the kind of a
number does. `Value.equals` is the equality that filters use: numbers at its top are compared by
what they mean.
-/

namespace DocQuery

/-- Equality of two numbers; no number equals itself unless it is one. -/
def Double.same (x y : Double) : Bool := x.compare? y == some .eq

namespace Value

mutual

/-- Values of one kind with equal parts. -/
def same : Value → Value → Bool
  | .null, .null => true
  | .undefined, .undefined => true
  | .minKey, .minKey => true
  | .maxKey, .maxKey => true
  | .boolean a, .boolean b => a == b
  | .int32 a, .int32 b => a == b
  | .int64 a, .int64 b => a == b
  | .double a, .double b => a.same b
  | .decimal a, .decimal b => a == b
  | .string a, .string b => a == b
  | .symbol a, .symbol b => a == b
  | .code a, .code b => a == b
  | .codeWithScope c s, .codeWithScope d t => c == d && (s.length == t.length && sameFields s t)
  | .document a, .document b => a.length == b.length && sameFields a b
  | .array a, .array b => sameItems a b
  | .objectId a, .objectId b => a == b
  | .date a, .date b => a == b
  | .regex p o, .regex q n => p == q && o == n
  | .timestamp t i, .timestamp u j => t == u && i == j
  | .binary s a, .binary t b => s == t && a == b
  | .dbPointer c i, .dbPointer d j => c == d && i == j
  | _, _ => false

/-- Every field of the first list has an equal value under its key in the second one. -/
def sameFields : List (String × Value) → List (String × Value) → Bool
  | [], _ => true
  | (key, value) :: rest, other =>
    (match other.lookup key with
      | some found => same value found
      | none => false) && sameFields rest other

/-- Equal items in equal places. -/
def sameItems : List Value → List Value → Bool
  | [], [] => true
  | a :: rest, b :: others => same a b && sameItems rest others
  | _, _ => false

end

end Value

end DocQuery
