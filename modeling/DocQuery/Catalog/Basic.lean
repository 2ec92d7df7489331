import DocQuery.Path

/-!
# Catalogs

A catalog says what is known of each collection: the kinds of its fields by path, which of them
hold ids of documents in other collections, the paths of its text index, and how requests are read.
`Collection.reference?` finds the shortest beginning of a path that is a reference, so the path is
split into a field of this collection and a path into the other one.
-/

namespace DocQuery

/-- The declared kind of a field. -/
inductive FieldKind where
  | objectId
  | date
  | number
  | boolean
  | string
  | document
  | mixed
deriving DecidableEq

/-- The name of a kind inside a message. -/
def FieldKind.label : FieldKind → String
  | .objectId => "object id"
  | .date => "date"
  | .number => "number"
  | .boolean => "boolean"
  | .string => "string"
  | .document => "document"
  | .mixed => "mixed"

/-- What is declared of a field. -/
structure FieldInfo where
  kind : FieldKind
  /-- the collection whose ids the field holds -/
  target : Option String
  /-- the field holds an array -/
  many : Bool
deriving DecidableEq

def FieldInfo.isReference (info : FieldInfo) : Bool := info.target.isSome

/-- How a page is obtained together with the total. -/
inductive Pagination where
  /-- both in one pipeline -/
  | facet
  /-- by two pipelines -/
  | legacy
deriving DecidableEq

/-- How requests to a collection are read. -/
structure Options where
  /-- the selection of the fields that never leave the store -/
  protectedFields : Option String
  /-- the selection of a request that names none; without it all fields are taken -/
  defaultFields : Option String
  defaultSort : Option String
  defaultLimit : UInt64
  /-- the paths that a free-text query looks into, with blanks between them -/
  queryFields : Option String
  /-- the paths that hold normalized texts -/
  searchFields : List String
  pagination : Pagination
  pageKey : String
  limitKey : String
  fieldsKey : String
  sortKey : String
  queryKey : String
  searchKey : String
  unwindKey : String
  allFieldsKey : String
deriving DecidableEq

namespace Options

/-- The options of a collection that names none. -/
def standard : Options where
  protectedFields := none
  defaultFields := some "_id"
  defaultSort := some "-_id"
  defaultLimit := 20
  queryFields := none
  searchFields := []
  pagination := .facet
  pageKey := "$page"
  limitKey := "$limit"
  fieldsKey := "$fields"
  sortKey := "$sort"
  queryKey := "$q"
  searchKey := "$search"
  unwindKey := "$unwind"
  allFieldsKey := "$getAllFields"

/-- The keys of a request that are not filters. -/
def reservedKeys (o : Options) : List String :=
  [o.pageKey, o.limitKey, o.fieldsKey, o.sortKey, o.queryKey, o.searchKey, o.unwindKey,
    o.allFieldsKey]

def isReserved (o : Options) (key : String) : Bool := o.reservedKeys.contains key

end Options

/-- What is known of one collection. -/
structure Collection where
  /-- the declared fields by their paths -/
  fields : List (String × FieldInfo)
  textIndex : List String
  options : Options
deriving DecidableEq

/-- A path that leads through a reference. -/
structure Reference where
  /-- the path of the field that holds the ids -/
  field : String
  /-- where the ids belong -/
  collection : String
  /-- the path inside of the other documents, if there is one -/
  rest : Option String
  many : Bool
deriving DecidableEq

namespace Collection

def empty : Collection := ⟨[], [], .standard⟩

/-- What is known of the path `_id` without being declared. -/
def idInfo : FieldInfo := ⟨.objectId, none, false⟩

/-- What is known of a path. -/
def info? (c : Collection) (path : String) : Option FieldInfo :=
  match c.fields.lookup path with
  | some info => some info
  | none => if path = "_id" then some idInfo else none

def hasTextIndex (c : Collection) : Bool := !c.textIndex.isEmpty

/-- The path behind a reference; a point with nothing behind it is no path. -/
def restOf (rest : Path) : Option String :=
  let text := Path.text rest
  if text = "" then none else some text

/-- The first beginning of `taken ++ rest`, longer than `taken`, that is a reference. -/
def referenceFrom (c : Collection) (taken : Path) : Path → Option Reference
  | [] => none
  | key :: rest =>
    let field := Path.text (taken ++ [key])
    match (c.fields.lookup field).bind fun info => info.target.map fun target => (info, target) with
    | some (info, target) => some ⟨field, target, restOf rest, info.many⟩
    | none => referenceFrom c (taken ++ [key]) rest

/-- The shortest beginning of a path that is a reference. -/
def reference? (c : Collection) (path : String) : Option Reference :=
  c.referenceFrom [] (Path.ofText path)

/-- The reference that a path leads through, if it goes on behind it. -/
def foreign? (c : Collection) (path : String) : Option (String × String × String) :=
  (c.reference? path).bind fun r => r.rest.map fun rest => (r.field, r.collection, rest)

/-- What is declared of the longest beginning of a path that is declared at all; `beginnings` are
the beginnings, longest first. -/
def nearest? (c : Collection) (beginnings : List Path) : Option FieldInfo :=
  beginnings.findSome? fun path => c.fields.lookup (Path.text path)

/-- The beginnings of a path that are shorter than it, longest first. -/
def beginnings : Path → List Path
  | [] => []
  | [_] => []
  | key :: rest => (beginnings rest).map (key :: ·) ++ [[key]]

/-- Whether a path belongs to this collection: it is known, or the nearest declared field above it
is no reference. -/
def recognizes (c : Collection) (path : String) : Bool :=
  (c.info? path).isSome ||
    match c.nearest? (beginnings (Path.ofText path)) with
    | some info => !info.isReference
    | none => false

end Collection

/-- The collections by name. -/
abbrev Catalog := List (String × Collection)

namespace Catalog

def find? (catalog : Catalog) (name : String) : Option Collection := catalog.lookup name

/-- Adds a collection, in place of one with that name. -/
def insert (catalog : Catalog) (name : String) (collection : Collection) : Catalog :=
  Keyed.put name collection catalog

def hasTextIndex (catalog : Catalog) (name : String) : Bool :=
  match catalog.find? name with
  | some collection => collection.hasTextIndex
  | none => false

end Catalog

end DocQuery
