import DocQuery.Keyed
import DocQuery.Number.Shortest

/-!
# JSON values

A JSON value as it is written: the members of an object are a list in which a name may occur more
than once. `Json.distinct` gives the value that is meant, where the last member of a name counts
and stands where the first one stood.
-/

namespace DocQuery

/-- A JSON value. A number without fraction and exponent is `whole` if it lies within
`-2 ^ 63` and `2 ^ 64 - 1`; every other number is `real` and finite. -/
inductive Json where
  | null
  | bool (b : Bool)
  | whole (n : Int)
  | real (x : Double)
  | string (s : String)
  | array (items : List Json)
  | object (members : List (String × Json))

instance : Inhabited Json := ⟨.null⟩

namespace Json

mutual

/-- The value that is meant: at each level every name is kept once. -/
def distinct : Json → Json
  | .array items => .array (distinctItems items)
  | .object members => .object (Keyed.ofList (distinctMembers members))
  | other => other

def distinctItems : List Json → List Json
  | [] => []
  | item :: rest => item.distinct :: distinctItems rest

/-- Each value on its own; the names are still as they were. -/
def distinctMembers : List (String × Json) → List (String × Json)
  | [] => []
  | (name, value) :: rest => (name, value.distinct) :: distinctMembers rest

end

/-- How a JSON text writes a number that is not whole. -/
def numberLayout : Layout := ⟨.toEven, some (-5, 15), true⟩

end Json

end DocQuery
