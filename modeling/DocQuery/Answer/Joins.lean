import DocQuery.Query.Compile
import DocQuery.Source.Basic

/-!
# Joined collections

Two things of a query lie in other collections. The ids behind its joined clauses are fetched before
the query runs. The documents that its joins put in place of ids are fetched after it, once for each
join that has an id in the batch. Ids are told apart by their text, so that numbers of different
kinds are the same id if they read the same.
-/

namespace DocQuery

variable {m : Type → Type} [Monad m]

/-- The body of a projection stage that keeps nothing but ids. -/
def onlyId : Document := [("_id", .int32 Selection.included)]

/-- Fetches the ids behind joined clauses, one clause after the other. -/
def resolveJoined (source : Source m) : List JoinedClause → ExceptT StoreError m ResolvedIds
  | [] => pure []
  | clause :: rest => do
    let docs ← source.fetch clause.collection none onlyId (some clause.condition)
    let others ← resolveJoined source rest
    pure ((clause.slot, docs.filterMap fun doc => doc.get? "_id") :: others)

namespace Join

/-! ### Ids -/

def isNull : Value → Bool
  | .null => true
  | _ => false

/-- The first value of each text, apart from those whose text is in `seen`. -/
def firsts (seen : List String) : List Value → List Value
  | [] => []
  | value :: rest =>
    if seen.contains value.display then firsts seen rest
    else value :: firsts (value.display :: seen) rest

/-- The ids in a field across a batch: each one once, in the order in which they come up. -/
def idsIn (docs : List Document) (field : String) : List Value :=
  let found := docs.flatMap fun doc => Path.leaves doc (Path.ofText field)
  firsts [] (found.filter fun id => !isNull id)

/-- The last of the fetched documents whose id has the same text. -/
def lastWithId (fetched : List Document) (id : Value) : Option Document :=
  fetched.reverse.find? fun doc => (doc.get? "_id").map Value.display == some id.display

/-! ### Fetching -/

/-- The body of the projection stage for the documents of a join. -/
def projection (join : Join) : Document :=
  match join.selection.canonical.toDocument with
  | [] => onlyId
  | body => body

/-- The joins that have ids in a batch, with these ids. -/
def pending (joins : List Join) (docs : List Document) : List (Join × List Value) :=
  joins.filterMap fun join =>
    match idsIn docs join.field with
    | [] => none
    | ids => some (join, ids)

/-- Fetches the documents of each join, one join after the other. -/
def fetchAll (source : Source m) :
    List (Join × List Value) → ExceptT StoreError m (List (Join × List Document))
  | [] => pure []
  | (join, ids) :: rest => do
    let docs ← source.fetch join.collection (some ids) join.projection none
    let others ← fetchAll source rest
    pure ((join, docs) :: others)

/-! ### Merging -/

/-- What stands in a joined field: the document in place of its id, nothing in place of an id
without a document. Of an array only the ids with a document stay; null stays as it is. -/
def joinedValue (fetched : List Document) : Value → Option Value
  | .array ids => some (.array (ids.filterMap fun id => (lastWithId fetched id).map .document))
  | .null => some .null
  | id => (lastWithId fetched id).map .document

/-- A document with the fetched documents of one join. -/
def merge (join : Join) (fetched : List Document) (doc : Document) : Document :=
  Path.update (joinedValue fetched) doc (Path.ofText join.field)

/-- Documents with the fetched documents of all joins, one join after the other. -/
def mergeAll (fetched : List (Join × List Document)) (docs : List Document) : List Document :=
  fetched.foldl (fun docs (join, found) => docs.map (merge join found)) docs

/-- A batch with the documents of its joins. Which ids are fetched is read off the batch as it
came. -/
def resolve (source : Source m) (joins : List Join) (docs : List Document) :
    ExceptT StoreError m (List Document) := do
  let fetched ← fetchAll source (pending joins docs)
  pure (mergeAll fetched docs)

end Join

end DocQuery
