import DocQuery.Catalog.Basic
import DocQuery.Store.Execution

/-!
# The document store

A store holds collections of documents, each with the paths that text searches look into. Documents
are only ever added, and each one has an `_id`: one that comes without gets the next id of the
store as its first field. `Store.execute` runs a pipeline over a collection.
-/

namespace DocQuery

/-- The documents of a collection and the paths that text searches look into. -/
structure StoredCollection where
  docs : List Document
  textIndex : List String

def StoredCollection.empty : StoredCollection := ⟨[], []⟩

structure Store where
  collections : List (String × StoredCollection)
  /-- the first id that the store gives to a document -/
  idBase : ObjectId
  /-- how many ids it has given -/
  assigned : Nat

namespace Store

def empty (idBase : ObjectId) : Store := ⟨[], idBase, 0⟩

def find? (store : Store) (name : String) : Option StoredCollection := store.collections.lookup name

/-- Changes a collection, which is made if it is not there. -/
def change (store : Store) (name : String) (f : StoredCollection → StoredCollection) : Store :=
  { store with
    collections := Keyed.adjust name (fun found => f (found.getD .empty)) store.collections }

/-- Sets the paths that text searches look into. -/
def setTextIndex (store : Store) (name : String) (paths : List String) : Store :=
  store.change name fun c => { c with textIndex := paths }

/-- A store with the collections of a catalog, all of them empty. -/
def forCatalog (idBase : ObjectId) (catalog : Catalog) : Store :=
  catalog.foldl (fun store (name, c) => store.setTextIndex name c.textIndex) (empty idBase)

/-- Adds a document to a collection; gives back its id. -/
def insert (store : Store) (name : String) (doc : Document) : Value × Store :=
  match doc.get? "_id" with
  | some id => (id, store.change name fun c => { c with docs := c.docs ++ [doc] })
  | none =>
    let id : Value := .objectId (store.idBase.after store.assigned)
    let store := { store with assigned := store.assigned + 1 }
    (id, store.change name fun c => { c with docs := c.docs ++ [("_id", id) :: doc] })

/-- Adds documents to a collection, which is made if it is not there; gives back their ids. -/
def insertMany (store : Store) (name : String) : List Document → List Value × Store
  | [] => ([], store.change name id)
  | doc :: rest =>
    let (id, store) := store.insert name doc
    let (ids, store) := store.insertMany name rest
    (id :: ids, store)

/-- How many documents a collection has. -/
def size (store : Store) (name : String) : Nat :=
  ((store.find? name).map fun c => c.docs.length).getD 0

/-- The documents that a pipeline makes of a collection. -/
def execute (store : Store) (name : String) (stages : List Document) :
    Except StoreError (List Document) :=
  match store.find? name with
  | none => .error (.collectionNotFound name)
  | some c =>
    (Execution.runStages c.textIndex (c.docs.map Row.ofDocument) stages).map fun rows =>
      rows.map Row.doc

end Store

end DocQuery
