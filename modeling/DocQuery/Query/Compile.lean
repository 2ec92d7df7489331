import DocQuery.Condition
import DocQuery.Query.Filter
import DocQuery.Query.Join
import DocQuery.Query.Pipeline
import DocQuery.Query.Search
import DocQuery.Request
import DocQuery.Selection.Reader
import DocQuery.SortOrder

/-!
# Compiling requests

`Compiler.compile` turns a request to a collection into a `Query`: a filter, a sort order, the
selected fields without the protected ones, the joins that they ask for, and the page. Only texts
that break the notation of selections or sort orders are errors; all else that makes no sense counts
as not being there.
-/

namespace DocQuery

/-- Why a request has no query. -/
inductive QueryError where
  | malformedSelection (input : String) (fault : Selection.Fault)
  | malformedSort (input : String) (fault : SortKeys.Fault)
  | invalidRequest (fault : Request.Fault)
  | invalidCatalog
  | unknownCollection (name : String)
deriving DecidableEq

def QueryError.message : QueryError → String
  | .malformedSelection input fault =>
    "malformed projection " ++ Text.quoted input ++ ": " ++ fault.message
  | .malformedSort input fault => "malformed sort " ++ Text.quoted input ++ ": " ++ fault.message
  | .invalidRequest fault => "invalid request: " ++ fault.message
  | .invalidCatalog => "invalid config"
  | .unknownCollection name => "unknown collection: " ++ name

/-- A selection with a marker, or the error that names its text. -/
def Selection.readOrError (marker : Int32) (s : String) : Except QueryError Selection :=
  (Selection.read marker s).mapError (QueryError.malformedSelection s)

/-- The selection of the fields of a collection that never leave the store. -/
def Collection.protectedSelection (c : Collection) : Except QueryError Selection :=
  match c.options.protectedFields with
  | some s => Selection.readOrError Selection.excluded s
  | none => .ok []

/-- A request compiled against a collection. -/
structure Query where
  collection : String
  filter : Filter
  order : SortOrder
  /-- the selected fields without the protected ones; without it all fields are taken -/
  selection : Option Selection
  /-- the body of the projection stage -/
  project : Option Document
  joins : List Join
  unwind : Option String
  page : UInt64
  limit : UInt64
  textSearch : Bool

namespace Query

/-- How many documents stand on the pages in front. A number beyond 64 bits is the greatest one. -/
def skip (q : Query) : UInt64 :=
  UInt64.ofNat (min ((q.page.toNat - 1) * q.limit.toNat) (twoTo 64 - 1))

/-- The parts of the query's pipelines, once the ids of its joined clauses are known. -/
def parts (q : Query) (resolved : ResolvedIds) (preStages : List Document) : PipelineParts where
  filter := some (q.filter.toDocument resolved)
  preStages := preStages
  sort := some q.order.here.toDocument
  unwind := q.unwind
  skip := q.skip
  limit := q.limit
  project := q.project

def pipeline (q : Query) (mode : Mode) (resolved : ResolvedIds) (preStages : List Document) :
    List Stage :=
  (q.parts resolved preStages).assemble mode

end Query

/-- A collection of a catalog, ready for requests. -/
structure Compiler where
  catalog : Catalog
  name : String
  collection : Collection
  protectedFields : Selection

namespace Compiler

def new (catalog : Catalog) (name : String) : Except QueryError Compiler :=
  match catalog.find? name with
  | none => .error (.unknownCollection name)
  | some collection => do
    .ok ⟨catalog, name, collection, ← collection.protectedSelection⟩

/-- The joins with the protected fields of their own collections taken away. -/
def stripJoins (catalog : Catalog) : List Join → Except QueryError (List Join)
  | [] => .ok []
  | join :: rest => do
    let join ← match catalog.find? join.collection with
      | none => .ok join
      | some target => do
        let hidden ← target.protectedSelection
        .ok { join with selection :=
          if hidden.isEmpty then join.selection else join.selection.without hidden }
    .ok (join :: (← stripJoins catalog rest))

/-- The joins of a selection. -/
def planJoins (c : Compiler) (selection : Selection) : Except QueryError (List Join) :=
  stripJoins c.catalog (Join.plan c.collection selection)

/-- What is declared of a path in another collection. -/
def targetInfo (c : Compiler) (collection path : String) : Option FieldInfo :=
  (c.catalog.find? collection).bind fun target => target.info? path

/-- The clause of one filter of a request, and the filter with the slot that it took. A field that
is not declared counts only if its path has more than one key. -/
def clauseFor (c : Compiler) (key : String) (condition : Condition) (filter : Filter) :
    Option (Clause × Filter) :=
  match c.collection.info? key with
  | some info => some (.field key (condition.compile (some info)), filter)
  | none =>
    match c.collection.foreign? key with
    | some (field, target, rest) =>
      let value := condition.compile (c.targetInfo target rest)
      some (filter.newJoin field target [(rest, value)])
    | none =>
      if key.toList.contains '.' then some (.field key (condition.compile none), filter) else none

/-- The filter with one more pair of a request. -/
def addPair (c : Compiler) (filter : Filter) (pair : String × String) : Filter :=
  if c.collection.options.isReserved pair.1 then filter
  else
    let condition := Condition.read pair.2
    match c.clauseFor pair.1 condition filter with
    | some (clause, filter) =>
      if condition.isAlternative then filter.addAny clause else filter.addAll clause
    | none => filter

/-- The text of a reserved key without blanks at its ends; nothing if that is empty. -/
def option? (request : Request) (key : String) : Option String :=
  ((request.get? key).map Text.trim).filter (· != "")

/-- A number of a request that is not zero. -/
def positive? (request : Request) (key : String) : Option UInt64 :=
  ((option? request key).bind Numeral.readUInt64).filter (· != 0)

/-- The body of the projection stage: the selected fields and the fields of the joins, which are
fetched as ids. Without a selection it leaves out the protected fields. -/
def projectFields (c : Compiler) (selection : Option Selection) (joins : List Join) : Document :=
  match selection with
  | some selection =>
    let tree := joins.foldl (fun tree join =>
      Selection.replacePath tree (Path.ofText join.field) (.marker Selection.included))
      selection.canonical
    match Selection.toDocument tree with
    | [] => [("_id", .int32 Selection.included)]
    | body => body
  | none => c.protectedFields.canonical.toDocument

/-- The body of the projection stage, with the relevance for a text search. -/
def projectDocument (c : Compiler) (selection : Option Selection) (joins : List Join)
    (textSearch : Bool) : Option Document :=
  let body := c.projectFields selection joins
  let body :=
    if textSearch then body.put scoreField Direction.relevance.toValue else body
  if body.isEmpty then none else some body

/-- The filter of a request. -/
def filterOf (c : Compiler) (request : Request) : Filter :=
  let options := c.collection.options
  let filter := request.foldl c.addPair .empty
  let filter :=
    match option? request options.queryKey with
    | some query => Search.freeText query (c.catalog.hasTextIndex c.name) c.collection filter
    | none => filter
  match option? request options.searchKey with
  | some text => Search.normalized text c.collection filter
  | none => filter

/-- Whether a request asks for all fields, whatever it selects. -/
def wantsAllFields (c : Compiler) (request : Request) : Bool :=
  match option? request c.collection.options.allFieldsKey with
  | some s => s = "true" || s = "1"
  | none => false

/-- The fields that a request selects, without the protected ones. -/
def selectionOf (c : Compiler) (request : Request) : Except QueryError (Option Selection) :=
  let options := c.collection.options
  match (option? request options.fieldsKey).or options.defaultFields with
  | none => .ok none
  | some fields =>
    if c.wantsAllFields request then .ok none
    else (Selection.readOrError Selection.included fields).map fun selection =>
      some (selection.without c.protectedFields)

/-- The path of the array to unwind, unless it lies in another collection. -/
def unwindOf (c : Compiler) (request : Request) : Option String :=
  (option? request c.collection.options.unwindKey).filter fun path =>
    (c.collection.foreign? path).isNone

/-- The query that a request means. -/
def compile (c : Compiler) (request : Request) : Except QueryError Query := do
  let options := c.collection.options
  let textSearch :=
    (option? request options.queryKey).isSome && c.catalog.hasTextIndex c.name
  let selection ← c.selectionOf request
  let joins ← match selection with
    | some selection => c.planJoins selection
    | none => .ok []
  let order ← (SortOrder.compile (option? request options.sortKey) c.collection textSearch).mapError
    fun (input, fault) => .malformedSort input fault
  .ok {
    collection := c.name
    filter := c.filterOf request
    order := order
    selection := selection
    project := c.projectDocument selection joins textSearch
    joins := joins
    unwind := c.unwindOf request
    page := (positive? request options.pageKey).getD 1
    limit := (positive? request options.limitKey).getD options.defaultLimit
    textSearch := textSearch }

end Compiler

end DocQuery
