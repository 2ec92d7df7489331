import DocQuery.Value.Basic

/-!
# Paths into documents

A path is a list of keys; as text the keys are joined by points. `get` follows it through documents
only, `candidates` also through the documents in arrays, where an array at the end stands for
itself and for its items. `set` writes at one place and makes the documents on the way, `update`
changes every place that `candidates` reaches as a field.
-/

namespace DocQuery

/-- The keys of a path in their order. -/
abbrev Path := List String

namespace Path

/-- The keys between the points of a text; there is at least one. -/
def ofText (s : String) : Path := (s.toList.splitOn '.').map String.ofList

def text (path : Path) : String := ".".intercalate path

/-- The value at a path through documents. -/
def get : Document → Path → Option Value
  | _, [] => none
  | doc, [key] => doc.get? key
  | doc, key :: rest =>
    match doc.get? key with
    | some (.document sub) => get sub rest
    | _ => none

/-- The values at a path, through documents and the documents in arrays. An array at the end gives
itself and then its items. -/
def candidates : Document → Path → List Value
  | _, [] => []
  | doc, [key] =>
    match doc.get? key with
    | none => []
    | some (.array items) => .array items :: items
    | some value => [value]
  | doc, key :: rest =>
    match doc.get? key with
    | some (.document sub) => candidates sub rest
    | some (.array items) =>
      items.flatMap fun
        | .document sub => candidates sub rest
        | _ => []
    | _ => []

/-- The candidates that are not arrays. -/
def leaves (doc : Document) (path : Path) : List Value :=
  (candidates doc path).filter fun value => !value.isArray

/-- Writes one value. What is missing on the way is made, and what is no document there is replaced
by one. -/
def set : Document → Path → Value → Document
  | doc, [], _ => doc
  | doc, [key], value => doc.put key value
  | doc, key :: rest, value =>
    let sub : Document :=
      match doc.get? key with
      | some (.document sub) => sub
      | _ => []
    doc.put key (.document (set sub rest value))

/-- Changes every field at a path, through documents and the documents in arrays; a field whose
value becomes `none` is erased. -/
def update (f : Value → Option Value) : Document → Path → Document
  | doc, [] => doc
  | doc, [key] =>
    match doc.get? key with
    | none => doc
    | some value =>
      match f value with
      | some new => doc.put key new
      | none => doc.erase key
  | doc, key :: rest =>
    match doc.get? key with
    | some (.document sub) => doc.put key (.document (update f sub rest))
    | some (.array items) =>
      doc.put key (.array (items.map fun
        | .document sub => .document (update f sub rest)
        | value => value))
    | _ => doc

/-- Erases every field at a path. -/
def remove (doc : Document) (path : Path) : Document := update (fun _ => none) doc path

end Path

end DocQuery
