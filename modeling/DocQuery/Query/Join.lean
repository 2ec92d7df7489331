import DocQuery.Catalog.Basic
import DocQuery.Selection.Basic

/-!
# Joins

A selection that goes on behind a reference asks for fields of the referenced documents. `Join.plan`
collects these requests, one for each reference field, in the order in which the fields come up.
-/

namespace DocQuery

/-- Documents to be put in place of the ids in a field. -/
structure Join where
  /-- the path of the field that holds ids -/
  field : String
  /-- where the ids belong -/
  collection : String
  /-- the fields to take of the documents there -/
  selection : Selection
  many : Bool

namespace Join

/-- The joins with one more: two for the same field become one for both selections. -/
def add (joins : List Join) (new : Join) : List Join :=
  match joins with
  | [] => [new]
  | join :: rest =>
    if join.field = new.field then
      { join with selection := join.selection.merge new.selection } :: rest
    else join :: add rest new

/-- What a reference asks for: the group below it, or the path behind it. The reference alone asks
for nothing, since it selects the ids. -/
def selectionBehind (reference : Reference) (node : Selection.Node) : Option Selection :=
  match reference.rest, node with
  | none, .group entries => some entries
  | none, .marker _ => none
  | some rest, node => some (Selection.mergePath [] (Path.ofText rest) node)

/-- The path of a key below a path. -/
def pathBelow (above : Option String) (key : String) : String :=
  match above with
  | some above => above ++ "." ++ key
  | none => key

mutual

/-- The joins with those of the node at a path. What stands below a reference belongs to the other
collection and is not looked into. -/
def planNode (collection : Collection) (joins : List Join) (path : String) :
    Selection.Node → List Join
  | .marker n =>
    match collection.reference? path with
    | some reference =>
      match selectionBehind reference (.marker n) with
      | some selection =>
        add joins ⟨reference.field, reference.collection, selection, reference.many⟩
      | none => joins
    | none => joins
  | .group entries =>
    match collection.reference? path with
    | some reference =>
      match selectionBehind reference (.group entries) with
      | some selection =>
        add joins ⟨reference.field, reference.collection, selection, reference.many⟩
      | none => joins
    | none => planEntries collection joins (some path) entries

/-- The joins with those of the entries below a path. -/
def planEntries (collection : Collection) (joins : List Join) (above : Option String) :
    List (String × Selection.Node) → List Join
  | [] => joins
  | (key, node) :: rest =>
    planEntries collection (planNode collection joins (pathBelow above key) node) above rest

end

/-- The joins that a selection asks for. -/
def plan (collection : Collection) (selection : Selection) : List Join :=
  planEntries collection [] none selection

end Join

end DocQuery
