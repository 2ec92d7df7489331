import DocQuery.Value.Equality

/-!
# The order of values

Kinds of values come in brackets, and values of different brackets are ordered by them. Inside a
bracket numbers go by size, texts by their characters, arrays item by item and documents field by
field, key before value. Values of a bracket that has no order of its own all count as equal.
-/

namespace DocQuery.Value

/-- The place of a kind of values among the others. -/
def bracket : Value → Nat
  | .minKey => 0
  | .null => 1
  | .undefined => 1
  | .int32 _ => 2
  | .int64 _ => 2
  | .double _ => 2
  | .decimal _ => 2
  | .string _ => 3
  | .symbol _ => 3
  | .document _ => 4
  | .array _ => 5
  | .binary _ _ => 6
  | .objectId _ => 7
  | .boolean _ => 8
  | .date _ => 9
  | .timestamp _ _ => 10
  | .regex _ _ => 11
  | .code _ => 12
  | .codeWithScope _ _ => 12
  | .dbPointer _ _ => 12
  | .maxKey => 13

/-- Only values of one bracket are compared by a range. -/
def comparable (a b : Value) : Bool := a.bracket == b.bracket

/-- The order of two numbers: two whole numbers exactly, else in the binary format, where what has
no order counts as equal. -/
def compareNumbers (a b : Value) : Ordering :=
  match a, b with
  | .int32 x, .int32 y => Ord.compare x.toInt y.toInt
  | .int64 x, .int64 y => Ord.compare x.toInt y.toInt
  | .int32 x, .int64 y => Ord.compare x.toInt y.toInt
  | .int64 x, .int32 y => Ord.compare x.toInt y.toInt
  | _, _ =>
    match a.asDouble?, b.asDouble? with
    | some x, some y => (x.compare? y).getD .eq
    | _, _ => .eq

mutual

/-- The order of two values. -/
def compare (a b : Value) : Ordering :=
  if a.bracket ≠ b.bracket then Ord.compare a.bracket b.bracket else
    match a, b with
    | .string x, .string y => Ord.compare x y
    | .objectId x, .objectId y => Ord.compare x.word.toNat y.word.toNat
    | .boolean x, .boolean y => Ord.compare x.toNat y.toNat
    | .date x, .date y => Ord.compare x.milliseconds.toInt y.milliseconds.toInt
    | .array xs, .array ys => compareItems xs ys
    | .document xs, .document ys => compareFields xs ys
    | a, b => compareNumbers a b

/-- Item by item; a list comes after its beginnings. -/
def compareItems : List Value → List Value → Ordering
  | [], [] => .eq
  | [], _ :: _ => .lt
  | _ :: _, [] => .gt
  | x :: xs, y :: ys => (compare x y).then (compareItems xs ys)

/-- Field by field, key before value. -/
def compareFields : List (String × Value) → List (String × Value) → Ordering
  | [], [] => .eq
  | [], _ :: _ => .lt
  | _ :: _, [] => .gt
  | (k, x) :: xs, (l, y) :: ys =>
    (Ord.compare k l).then ((compare x y).then (compareFields xs ys))

end

/-- Equality as filters see it: two numbers by what they mean, all else by kind and parts. -/
def equals (a b : Value) : Bool :=
  match a.asDouble?, b.asDouble? with
  | some _, some _ => compare a b == .eq
  | _, _ => a.same b

end DocQuery.Value
