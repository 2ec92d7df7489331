import DocQuery.Answer.Joins

/-!
# Answering requests

A `Querier` answers requests to one collection of a source: with documents, with their number, or
with a page that has both. A request is compiled, the ids of its joined clauses are fetched, its
pipeline runs, the documents of its joins are put in, and what is sorted by joined fields is sorted
at the end.
-/

namespace DocQuery

/-- Why a request has no answer. -/
inductive Failure where
  | query (e : QueryError)
  | store (e : StoreError)

def Failure.message : Failure → String
  | .query e => e.message
  | .store e => e.message

/-- Documents of one page and where it stands among the others. -/
structure Page where
  docs : List Document
  /-- how many documents all pages have -/
  total : Nat
  page : UInt64
  /-- how many pages there are -/
  pages : Nat
  limit : UInt64

namespace Page

/-- How many pages a number of documents fills. -/
def pagesFor (total limit : Nat) : Nat := (total + (max limit 1 - 1)) / max limit 1

def ofQuery (query : Query) (total : Nat) (docs : List Document) : Page :=
  ⟨docs, total, query.page, pagesFor total query.limit.toNat, query.limit⟩

end Page

/-- The number in the document of a count; without one it is zero. -/
def countedTotal (doc : Option Document) : Nat :=
  ((doc.bind fun doc => doc.get? totalField).bind Value.asCount?).getD 0

/-! ### The document that holds a page -/

namespace Facet

/-- The number of documents in it. -/
def total (facet : Document) : Except StoreError Nat :=
  match facet.get? totalField with
  | none => .ok 0
  | some (.array (.document counted :: _)) => .ok (countedTotal (some counted))
  | some (.array _) => .ok 0
  | some other => .error (.unexpectedPage "total" other)

def rows : List Value → Except StoreError (List Document)
  | [] => .ok []
  | .document doc :: rest => (rows rest).map fun docs => doc :: docs
  | other :: _ => .error (.unexpectedPage "row" other)

/-- The documents in it. -/
def data (facet : Document) : Except StoreError (List Document) :=
  match facet.get? dataField with
  | none => .ok []
  | some (.array items) => rows items
  | some other => .error (.unexpectedPage "data" other)

/-- The number and the documents in it. -/
def parts (facet : Document) : Except StoreError (Nat × List Document) := do
  let counted ← total facet
  let docs ← data facet
  .ok (counted, docs)

end Facet

/-- Answers requests to one collection of a source. -/
structure Querier (m : Type → Type) where
  catalog : Catalog
  name : String
  source : Source m

namespace Querier

variable {m : Type → Type} [Monad m]

/-- A querier for a collection that the catalog knows. -/
def new (catalog : Catalog) (name : String) (source : Source m) : Except QueryError (Querier m) :=
  match catalog.find? name with
  | some _ => .ok ⟨catalog, name, source⟩
  | none => .error (.unknownCollection name)

/-- What a request means. -/
def compile (q : Querier m) (request : Request) : Except QueryError Query := do
  (← Compiler.new q.catalog q.name).compile request

/-- A compiled query, and the ids of its joined clauses. -/
def prepare (q : Querier m) (request : Request) : ExceptT Failure m (Query × ResolvedIds) := do
  let query ← ExceptT.mk (pure ((q.compile request).mapError .query))
  let resolved ← ExceptT.adapt .store (resolveJoined q.source query.filter.joins)
  pure (query, resolved)

/-- Runs the pipeline of a query. -/
def run (q : Querier m) (query : Query) (mode : Mode) (resolved : ResolvedIds)
    (preStages : List Document) : ExceptT StoreError m (List Document) :=
  q.source.execute query.collection ((query.pipeline mode resolved preStages).map Stage.toDocument)

/-- A batch with the documents of its joins, in the order of the joined fields. -/
def finish (q : Querier m) (query : Query) (docs : List Document) :
    ExceptT StoreError m (List Document) := do
  let joined ← Join.resolve q.source query.joins docs
  ExceptT.mk (pure (sortDocuments query.order.afterJoins joined))

/-- The pipeline that a request runs. -/
def pipeline (q : Querier m) (request : Request) (mode : Mode) (preStages : List Document) :
    ExceptT Failure m (List Document) := do
  let (query, resolved) ← q.prepare request
  pure ((query.pipeline mode resolved preStages).map Stage.toDocument)

/-- The documents of the page that a request asks for. -/
def find (q : Querier m) (request : Request) (preStages : List Document) :
    ExceptT Failure m (List Document) := do
  let (query, resolved) ← q.prepare request
  ExceptT.adapt .store do
    let docs ← q.run query .find resolved preStages
    q.finish query docs

/-- How many documents a request matches, where each item of an unwound array counts. -/
def count (q : Querier m) (request : Request) (preStages : List Document) :
    ExceptT Failure m Nat := do
  let (query, resolved) ← q.prepare request
  ExceptT.adapt .store do
    let docs ← q.run query .count resolved preStages
    pure (countedTotal docs.head?)

/-- The number of all documents and the documents of one page, not yet joined. -/
def batch (q : Querier m) (query : Query) (pagination : Pagination) (resolved : ResolvedIds)
    (preStages : List Document) : ExceptT StoreError m (Nat × List Document) :=
  match pagination with
  | .facet => do
    let docs ← q.run query .page resolved preStages
    ExceptT.mk (pure (Facet.parts (docs.getLast?.getD [])))
  | .legacy => do
    let counted ← q.run query .count resolved preStages
    let docs ← q.run query .find resolved preStages
    pure (countedTotal counted.head?, docs)

/-- How a collection counts the documents of its pages. -/
def pagination (q : Querier m) : Pagination :=
  ((q.catalog.find? q.name).map fun c => c.options.pagination).getD .facet

/-- The page that a request asks for. -/
def page (q : Querier m) (request : Request) (preStages : List Document) :
    ExceptT Failure m Page := do
  let (query, resolved) ← q.prepare request
  ExceptT.adapt .store do
    let (total, docs) ← q.batch query q.pagination resolved preStages
    let joined ← q.finish query docs
    pure (Page.ofQuery query total joined)

end Querier

end DocQuery
