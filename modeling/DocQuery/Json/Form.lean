import DocQuery.Json.Basic

/-!
# Forms of JSON texts

The grammar alone gives a text its form, in which a string or a number need not mean anything: an
escape may name half a pair of units, and a number may be too large. A form nests as deep as it
likes. `Form.value?` is the value that a form means, if all its parts mean something and it does not
nest too deep. Whoever asks for some members of an object only need not mind the others.
-/

namespace DocQuery.Json

/-- What the grammar makes of a JSON text. -/
inductive Form where
  | null
  | bool (b : Bool)
  | number (value : Option Json)
  | string (text : Option String)
  | array (items : List Form)
  | object (members : List (Option String × Form))

/-- How deep arrays and objects may nest in a value. -/
def nestingLimit : Nat := 127

namespace Form

mutual

/-- The value that a form means, if it nests at most `room` deep. -/
def value? : Form → Nat → Option Json
  | .null, _ => some .null
  | .bool b, _ => some (.bool b)
  | .number value, _ => value
  | .string text, _ => text.map .string
  | .array _, 0 => none
  | .array items, room + 1 => (items? items room).map .array
  | .object _, 0 => none
  | .object members, room + 1 => (members? members room).map .object

def items? : List Form → Nat → Option (List Json)
  | [], _ => some []
  | item :: rest, room => do
    let value ← item.value? room
    let values ← items? rest room
    some (value :: values)

def members? : List (Option String × Form) → Nat → Option (List (String × Json))
  | [], _ => some []
  | (name, item) :: rest, room => do
    let name ← name
    let value ← item.value? room
    let values ← members? rest room
    some ((name, value) :: values)

end

end Form

mutual

/-- A value as a form, which means it. -/
def form : Json → Form
  | .null => .null
  | .bool b => .bool b
  | .whole n => .number (some (.whole n))
  | .real x => .number (some (.real x))
  | .string s => .string (some s)
  | .array items => .array (itemForms items)
  | .object members => .object (memberForms members)

def itemForms : List Json → List Form
  | [] => []
  | item :: rest => item.form :: itemForms rest

def memberForms : List (String × Json) → List (Option String × Form)
  | [] => []
  | (name, value) :: rest => (some name, value.form) :: memberForms rest

end

end DocQuery.Json
