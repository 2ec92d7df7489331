import DocQuery.Catalog.Basic
import DocQuery.Text.Alphanumeric
import DocQuery.Text.Blank
import DocQuery.Text.Quoted

/-!
# Sort orders

A sort order is written as words: a path with an optional sign in front, where a minus means
descending. A path that is named again takes the new direction at its old place. `SortOrder.compile`
keeps the keys that a collection can be sorted by, apart from those that lead through a reference,
which can only be applied after the referenced documents are there.
-/

namespace DocQuery

inductive Direction where
  | ascending
  | descending
  /-- by how well a document fits a text search, best first -/
  | relevance
deriving DecidableEq

def Direction.toValue : Direction → Value
  | .ascending => .int32 1
  | .descending => .int32 (-1)
  | .relevance => .document [("$meta", .string "textScore")]

/-- The name of the field that holds the relevance of a document. -/
def scoreField : String := "score"

/-- Paths with their directions, the most important one first. -/
abbrev SortKeys := List (String × Direction)

namespace SortKeys

/-- Why a text is no sort order. -/
inductive Fault where
  | missingField
  | unexpectedCharacter (c : Char)
  | emptySegment (path : String)
deriving DecidableEq

def Fault.message : Fault → String
  | .missingField => "missing field after direction"
  | .unexpectedCharacter c => "unexpected character " ++ Text.quotedChar c
  | .emptySegment path => "empty segment in " ++ Text.quoted path

def isPathChar (c : Char) : Bool := Text.isAlphanumeric c || c = '_' || c = '.' || c = '$'

/-- A path that a sort order may name: keys that are not empty, made of letters, numbers,
underscores and dollar signs. -/
def checkPath (path : List Char) : Except Fault String :=
  if path.isEmpty then .error .missingField
  else
    match path.find? fun c => !isPathChar c with
    | some c => .error (.unexpectedCharacter c)
    | none =>
      let name := String.ofList path
      if (Path.ofText name).contains "" then .error (.emptySegment name) else .ok name

/-- A word without its sign, and the direction that the sign means. -/
def splitSign : List Char → List Char × Direction
  | '-' :: rest => (rest, .descending)
  | '+' :: rest => (rest, .ascending)
  | cs => (cs, .ascending)

/-- The keys with those of one more word. -/
def addWord (keys : SortKeys) (word : String) : Except Fault SortKeys := do
  let (path, direction) := splitSign word.toList
  .ok (Keyed.put (← checkPath path) direction keys)

/-- The keys that a text writes. -/
def read (s : String) : Except Fault SortKeys := (Text.words s).foldlM addWord []

/-- Keys as the body of a sort stage. -/
def toDocument (keys : SortKeys) : Document :=
  Document.ofFields (keys.map fun (path, direction) => (path, direction.toValue))

end SortKeys

/-- A sort order by where it can be applied. -/
structure SortOrder where
  /-- in the pipeline -/
  here : SortKeys
  /-- after the referenced documents are there -/
  afterJoins : SortKeys

namespace SortOrder

def isEmpty (order : SortOrder) : Bool := order.here.isEmpty && order.afterJoins.isEmpty

/-- The order with one more key: it is left out if the collection does not know its path. -/
def addKey (collection : Collection) (textSearch : Bool) (order : SortOrder)
    (key : String × Direction) : SortOrder :=
  if textSearch && key.1 == scoreField then
    { order with here := order.here ++ [(key.1, .relevance)] }
  else if collection.recognizes key.1 then { order with here := order.here ++ [key] }
  else if (collection.foreign? key.1).isSome then
    { order with afterJoins := order.afterJoins ++ [key] }
  else order

/-- The keys that are meant: those of the request, else the relevance for a text search, else the
ones that the collection has by default. A fault comes with the text that it is in. -/
def effectiveKeys (requested : Option String) (collection : Collection) (textSearch : Bool) :
    Except (String × SortKeys.Fault) SortKeys :=
  match requested with
  | some s => (SortKeys.read s).mapError fun fault => (s, fault)
  | none =>
    if textSearch then .ok [(scoreField, .relevance)]
    else
      match collection.options.defaultSort with
      | some s => (SortKeys.read s).mapError fun fault => (s, fault)
      | none => .ok []

/-- The sort order of a request. -/
def compile (requested : Option String) (collection : Collection) (textSearch : Bool) :
    Except (String × SortKeys.Fault) SortOrder :=
  (effectiveKeys requested collection textSearch).map fun keys =>
    keys.foldl (addKey collection textSearch) ⟨[], []⟩

end SortOrder

end DocQuery
