import DocQuery.Value.Basic

/-!
# Pipelines

A pipeline is a list of stages. `Pipeline.assemble` lays the parts of a request out: the filter
first, then the caller's own stages, then sort, unwind, skip, limit and projection. A count leaves
out what does not change the number of documents, and a page holds the count beside the data.
-/

namespace DocQuery

inductive Stage where
  | filter (body : Document)
  /-- a stage of the caller -/
  | raw (stage : Document)
  | sort (body : Document)
  /-- one document for each item of an array -/
  | unwind (path : String) (keepEmpty : Bool)
  | skip (count : UInt64)
  | limit (count : UInt64)
  | project (body : Document)
  /-- one document that holds the number of documents -/
  | count (field : String)
  /-- two pipelines side by side -/
  | facet (total data : List Stage)

/-- The field of a count, and of the count inside of a page. -/
def totalField : String := "total"

/-- The field of the documents inside of a page. -/
def dataField : String := "data"

namespace Stage

mutual

def toDocument : Stage → Document
  | .filter body => [("$match", .document body)]
  | .raw stage => stage
  | .sort body => [("$sort", .document body)]
  | .unwind path keepEmpty =>
    [("$unwind", .document [("path", .string ("$" ++ path)),
      ("preserveNullAndEmptyArrays", .boolean keepEmpty)])]
  | .skip n => [("$skip", Value.ofCount n.toNat)]
  | .limit n => [("$limit", Value.ofCount n.toNat)]
  | .project body => [("$project", .document body)]
  | .count field => [("$count", .string field)]
  | .facet total data =>
    [("$facet", .document [(totalField, .array (toValues total)),
      (dataField, .array (toValues data))])]

/-- Stages as documents in an array. -/
def toValues : List Stage → List Value
  | [] => []
  | stage :: rest => .document stage.toDocument :: toValues rest

end

/-- The operator of a stage; that of a caller's stage is its first key. -/
def name : Stage → String
  | .filter _ => "$match"
  | .raw stage => (stage.keys.head?).getD ""
  | .sort _ => "$sort"
  | .unwind _ _ => "$unwind"
  | .skip _ => "$skip"
  | .limit _ => "$limit"
  | .project _ => "$project"
  | .count _ => "$count"
  | .facet _ _ => "$facet"

end Stage

/-- What a pipeline gives. -/
inductive Mode where
  /-- the documents of one page -/
  | find
  /-- one document with the total, or none if it is zero -/
  | count
  /-- one document with the total and the documents of one page -/
  | page
deriving DecidableEq

/-- The parts of a request that make up a pipeline. -/
structure PipelineParts where
  filter : Option Document
  preStages : List Document
  sort : Option Document
  unwind : Option String
  skip : UInt64
  limit : UInt64
  project : Option Document

namespace PipelineParts

/-- The filter, unless everything passes it, and the caller's stages. -/
def baseStages (parts : PipelineParts) : List Stage :=
  ((parts.filter.filter fun body => !body.isEmpty).toList.map Stage.filter) ++
    parts.preStages.map Stage.raw

def sortStages (parts : PipelineParts) : List Stage :=
  (parts.sort.filter fun body => !body.isEmpty).toList.map Stage.sort

def unwindStages (parts : PipelineParts) : List Stage :=
  parts.unwind.toList.map fun path => .unwind path true

/-- The stages that make one page of documents. -/
def dataStages (parts : PipelineParts) : List Stage :=
  parts.sortStages ++ parts.unwindStages ++ [.skip parts.skip, .limit parts.limit] ++
    parts.project.toList.map Stage.project

/-- The stages that count the documents of all pages. -/
def countStages (parts : PipelineParts) : List Stage :=
  parts.unwindStages ++ [.count totalField]

/-- The pipeline for a mode. -/
def assemble (parts : PipelineParts) (mode : Mode) : List Stage :=
  parts.baseStages ++
    match mode with
    | .find => parts.dataStages
    | .count => parts.countStages
    | .page => [.facet parts.countStages parts.dataStages]

end PipelineParts

end DocQuery
