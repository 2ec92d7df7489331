import DocQuery.CommandLine.Fault
import DocQuery.Coercion
import DocQuery.Extended.Reader

/-!
# Loading data

A data file is an object with one array of documents for each collection. Where a catalog declares
a field of ids or dates, texts that write one become the value that they write; the same holds of
the `_id` of every document of a declared collection.
-/

namespace DocQuery.CommandLine

/-! ### Declared fields -/

/-- A text as the value of a kind that it writes; everything else stays as it is. -/
def convertText (kind : FieldKind) : Value → Value
  | .string s => (kind.coerce? s).getD (.string s)
  | value => value

/-- The value of a field with its texts converted; of an array these are the items. -/
def convertValue (kind : FieldKind) : Value → Value
  | .array items => .array (items.map (convertText kind))
  | value => convertText kind value

/-- A document with the texts at a path converted. -/
def convertAt (kind : FieldKind) (path : String) (doc : Document) : Document :=
  Path.update (fun value => some (convertValue kind value)) doc (Path.ofText path)

/-- The kinds that are written as text in a data file. -/
def isConverted : FieldKind → Bool
  | .objectId => true
  | .date => true
  | _ => false

/-- A document with the texts of all declared fields converted, and of its `_id` at last. -/
def convertDeclared (collection : Collection) (doc : Document) : Document :=
  let declared := collection.fields.foldl (fun doc (path, info) =>
    if isConverted info.kind then convertAt info.kind path doc else doc) doc
  convertAt .objectId "_id" declared

/-! ### Collections -/

/-- The documents of one collection. -/
def documentsOf (catalog : Catalog) (name : String) : List Json → Except Fault (List Document)
  | [] => .ok []
  | j :: rest => do
    let doc ← match Extended.value? j with
      | some (.document doc) => .ok doc
      | some value => .error (.data (.notDocument name value))
      | none => .error (.data (.unreadable name))
    let doc := match catalog.find? name with
      | some collection => convertDeclared collection doc
      | none => doc
    (documentsOf catalog name rest).map fun docs => doc :: docs

/-- A store with the documents of one more collection. -/
def loadCollection (catalog : Catalog) (store : Store) (member : String × Json) :
    Except Fault Store :=
  match member.2 with
  | .array items =>
    (documentsOf catalog member.1 items).map fun docs => (store.insertMany member.1 docs).2
  | _ => .error (.data (.notArray member.1))

/-- A store with the collections of a catalog and the documents of a data file. -/
def load (idBase : ObjectId) (catalog : Catalog) : Json → Except Fault Store
  | .object members => members.foldlM (loadCollection catalog) (Store.forCatalog idBase catalog)
  | _ => .error (.data .notObject)

end DocQuery.CommandLine
