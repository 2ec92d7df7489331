import DocQuery.Store.Basic

/-!
# Sources of documents

A source answers pipelines; what else an answer does is up to the monad of the source. A store is a
source whose answers do nothing else.
-/

namespace DocQuery

/-- What runs pipelines over collections. -/
structure Source (m : Type → Type) where
  execute : String → List Document → ExceptT StoreError m (List Document)

/-- A store as a source. -/
def Store.source (store : Store) : Source Id where
  execute name stages := store.execute name stages

namespace Source

/-- The body of a match stage for documents whose ids are among those given, if any are, and which
pass a filter, if there is one. -/
def fetchBody : Option (List Value) → Option Document → Document
  | some ids, some filter =>
    [("$and", .array [.document [("_id", .document [("$in", .array ids)])], .document filter])]
  | some ids, none => [("_id", .document [("$in", .array ids)])]
  | none, some filter => filter
  | none, none => []

/-- The pipeline that fetches documents; without projected fields they are whole. -/
def fetchStages (ids : Option (List Value)) (projection : Document) (filter : Option Document) :
    List Document :=
  [("$match", .document (fetchBody ids filter))] ::
    if projection.isEmpty then [] else [[("$project", .document projection)]]

variable {m : Type → Type}

/-- Fetches documents by their ids, by a filter, or by both. -/
def fetch (source : Source m) (name : String) (ids : Option (List Value)) (projection : Document)
    (filter : Option Document) : ExceptT StoreError m (List Document) :=
  source.execute name (fetchStages ids projection filter)

end Source

end DocQuery
