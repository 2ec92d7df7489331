import DocQuery.Store.Match
import DocQuery.Store.Projection
import DocQuery.Store.Row

/-!
# Running pipelines

Each stage turns rows into rows. `runStages` runs a pipeline, stage after stage; the first fault
ends it. The pipelines inside of a facet stage all start from the rows in front of it.
-/

namespace DocQuery.Execution

/-- Rows, or why there are none. -/
abbrev Result := Except StoreError (List Row)

def fault {α : Type} (f : PipelineFault) : Except StoreError α := .error (.invalidPipeline f)

/-! ### Single stages -/

/-- The rows that pass the body of a match stage. A body with a text search gives every row its
relevance first. -/
def runMatch (textIndex : List String) (rows : List Row) (body : Document) : Result := do
  let test ← Test.read body
  match test.search? with
  | none => .ok (rows.filter fun row => test.holds row.doc row.relevance)
  | some search =>
    if textIndex.isEmpty then fault .textWithoutIndex
    else
      let words := Row.searchWords search
      let rated := rows.map fun row => ⟨row.doc, Row.relevanceOf textIndex words row.doc⟩
      .ok (rated.filter fun row => test.holds row.doc row.relevance)

/-- The direction that a value in a sort body means. -/
def direction? : Value → Option Direction
  | .document fields =>
    if Document.string? fields "$meta" == some "textScore" then some .relevance else none
  | .int32 n => if n = 1 then some .ascending else if n = -1 then some .descending else none
  | .int64 n => if n = 1 then some .ascending else if n = -1 then some .descending else none
  | _ => none

/-- The sort keys of a body. -/
def sortKeys (body : Document) : Except StoreError SortKeys :=
  body.mapM fun (path, value) =>
    match direction? value with
    | some direction => .ok (path, direction)
    | none => fault (.badSortDirection value path)

def runProject (body : Document) (row : Row) : Except StoreError Row :=
  (Projection.project row.relevance row.doc body).map fun doc => ⟨doc, row.relevance⟩

/-- The fields of a document with those of a body set one after the other. A text that starts with a
dollar sign stands for the value at a path, and for nothing if there is none. -/
def setFields (doc body : Document) : Document :=
  body.foldl (fun doc (key, value) =>
    match value with
    | .string s =>
      match s.toList with
      | '$' :: source =>
        match Path.get doc (Path.ofText (String.ofList source)) with
        | some found => Path.set doc (Path.ofText key) found
        | none => doc
      | _ => Path.set doc (Path.ofText key) (.string s)
    | value => Path.set doc (Path.ofText key) value) doc

/-- The path of the array that an unwind stage takes apart, and whether a document without items
stays. -/
def unwindBody : Value → Except StoreError (String × Bool)
  | .string path => .ok (path, false)
  | .document options =>
    match Document.string? options "path" with
    | some path =>
      .ok (path, ((Document.get? options "preserveNullAndEmptyArrays").map Value.truthy).getD false)
    | none => fault .unwindWithoutPath
  | _ => fault .unwindShape

/-- The rows that an array at a path gives: one for each item. What is no array stays as it is. -/
def unwindRow (path : Path) (keepEmpty : Bool) (row : Row) : List Row :=
  let empty := if keepEmpty then [⟨Path.remove row.doc path, row.relevance⟩] else []
  match Path.get row.doc path with
  | none => empty
  | some .null => empty
  | some (.array []) => empty
  | some (.array items) => items.map fun item => ⟨Path.set row.doc path item, row.relevance⟩
  | some _ => [row]

def runUnwind (rows : List Row) (body : Value) : Result := do
  let (written, keepEmpty) ← unwindBody body
  match written.toList with
  | '$' :: path =>
    .ok (rows.flatMap (unwindRow (Path.ofText (String.ofList path)) keepEmpty))
  | _ => fault (.unwindPathMark written)

/-- One row with the number of rows; no row if there is none. -/
def runCount (rows : List Row) : Value → Result
  | .string field =>
    if rows.isEmpty then .ok []
    else .ok [.ofDocument [(field, Value.ofCount rows.length)]]
  | _ => fault .countShape

/-- The stages whose body is a document, apart from facets. -/
def runWithDocument (textIndex : List String) (rows : List Row) (name : String) (body : Document) :
    Result :=
  match name with
  | "$match" => runMatch textIndex rows body
  | "$sort" => do Row.sort (← sortKeys body) rows
  | "$project" => rows.mapM (runProject body)
  | "$addFields" => .ok (rows.map fun row => ⟨setFields row.doc body, row.relevance⟩)
  | "$set" => .ok (rows.map fun row => ⟨setFields row.doc body, row.relevance⟩)
  | _ => fault (.unsupportedStage name)

/-- Whether the body of a stage has to be a document. -/
def needsDocument (name : String) : Bool :=
  ["$match", "$sort", "$project", "$facet", "$addFields", "$set"].contains name

/-- The stages that take or leave out the first rows. -/
def runWithCount (rows : List Row) (name : String) (body : Value)
    (cut : Nat → List Row → List Row) : Result :=
  match body.asCount? with
  | some n => .ok (cut n rows)
  | none => fault (.bodyNotCount name)

/-- The stages apart from facets. -/
def runSimple (textIndex : List String) (rows : List Row) (name : String) (body : Value) : Result :=
  match name with
  | "$skip" => runWithCount rows name body List.drop
  | "$limit" => runWithCount rows name body List.take
  | "$unwind" => runUnwind rows body
  | "$count" => runCount rows body
  | _ =>
    if needsDocument name then
      match body with
      | .document fields => runWithDocument textIndex rows name fields
      | _ => fault (.bodyNotDocument name)
    else fault (.unsupportedStage name)

/-! ### Whole pipelines -/

def isDocument : Value → Bool
  | .document _ => true
  | _ => false

mutual

/-- One stage: a document with one field, the name of the stage and its body. -/
def runStage (textIndex : List String) (rows : List Row) : List (String × Value) → Result
  | [(name, body)] => runBody textIndex rows name body
  | _ => fault .stageShape

/-- A stage by its name and body. -/
def runBody (textIndex : List String) (rows : List Row) (name : String) : Value → Result
  | .document fields =>
    if name = "$facet" then
      (runFacets textIndex rows [] fields).map fun doc => [.ofDocument doc]
    else runSimple textIndex rows name (.document fields)
  | body => runSimple textIndex rows name body

/-- The pipelines of a facet stage, each one's documents put under its name. -/
def runFacets (textIndex : List String) (rows : List Row) (done : Document) :
    List (String × Value) → Except StoreError Document
  | [] => .ok done
  | (name, .array stages) :: rest =>
    if stages.all isDocument then do
      let result ← runItems textIndex rows stages
      let docs := result.map fun row => .document row.doc
      runFacets textIndex rows (done.put name (.array docs)) rest
    else fault (.facetShape name)
  | (name, _) :: _ => fault (.facetShape name)

/-- The stages in an array, one after the other. -/
def runItems (textIndex : List String) (rows : List Row) : List Value → Result
  | [] => .ok rows
  | .document stage :: rest => do
    let rows ← runStage textIndex rows stage
    runItems textIndex rows rest
  | _ :: _ => fault .stageShape

end

/-- A whole pipeline. -/
def runStages (textIndex : List String) (rows : List Row) (stages : List Document) : Result :=
  stages.foldlM (runStage textIndex) rows

end DocQuery.Execution
