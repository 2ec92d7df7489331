import DocQuery.Catalog.Reader
import DocQuery.CommandLine.Arguments
import DocQuery.CommandLine.Loader
import DocQuery.Extended.Writer

/-!
# Running a call

A call reads its two files, loads the data into a store and answers the request. Where the files are
is up to `open?`, which gives the text of a file if there is one.
-/

namespace DocQuery.CommandLine

/-- The JSON value that a file holds. -/
def readFile {m : Type → Type} [Monad m] (open? : String → m (Option String)) (path : String) :
    ExceptT Fault m Json := do
  match ← open? path with
  | none => throw (.unreadable path)
  | some text =>
    match Json.read text with
    | some j => pure j.distinct
    | none => throw (.malformed path)

/-- A page as the program writes it. -/
def pageJson (page : Page) : Json :=
  .object [("data", Extended.documents page.docs), ("pagination", .object [
    ("total", .whole page.total), ("page", .whole page.page.toNat),
    ("pages", .whole page.pages), ("limit", .whole page.limit.toNat)])]

/-- The answer of a querier to a call. -/
def Invocation.answer (call : Invocation) (q : Querier Id) : Except Failure Json :=
  match call.output with
  | .find => (q.find call.request call.preStages).map Extended.documents
  | .count => (q.count call.request call.preStages).map fun n => .whole n
  | .page => (q.page call.request call.preStages).map pageJson
  | .pipeline => (q.pipeline call.request .find call.preStages).map Extended.documents

/-- The answer to a call over the collections of a store. -/
def Invocation.query (call : Invocation) (catalog : Catalog) (store : Store) :
    Except Failure Json := do
  let q ← (Querier.new catalog call.collection store.source).mapError .query
  call.answer q

/-- The catalog that a JSON value writes. -/
def catalogOf (j : Json) : Except Fault Catalog :=
  match Catalog.ofJson? j with
  | some catalog => .ok catalog
  | none => .error (.request (.query .invalidCatalog))

/-- Reads the files of a call and answers it. Documents that come without an id are given ids from
`idBase` on. -/
def Invocation.run {m : Type → Type} [Monad m] (open? : String → m (Option String))
    (idBase : ObjectId) (call : Invocation) : ExceptT Fault m Json := do
  let catalog ← ExceptT.mk (pure (catalogOf (← readFile open? call.catalog)))
  let store ← ExceptT.mk (pure (load idBase catalog (← readFile open? call.data)))
  ExceptT.mk (pure ((call.query catalog store).mapError .request))

end DocQuery.CommandLine
