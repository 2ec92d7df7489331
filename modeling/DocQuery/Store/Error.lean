import DocQuery.Text.Quoted
import DocQuery.Value.Display

/-!
# Errors of a store

Why a store has no answer to a pipeline. Each fault of a pipeline has its own constructor and its
wording in `PipelineFault.message`. One of the reasons is no refusal: where the comparison of a sort is no
order on the rows, what comes out is left open, and the run may break off without any answer.
-/

namespace DocQuery

/-- What is wrong with a pipeline. -/
inductive PipelineFault where
  | unknownOperator (name : String)
  | unknownFieldOperator (name : String)
  | operandNotArray (operator : String)
  | emptyOperand (operator : String)
  | operandNotDocuments (operator : String)
  | textWithoutSearch
  | patternNotText
  | badPattern
  | textWithoutIndex
  | stageShape
  | unsupportedStage (name : String)
  | bodyNotDocument (stage : String)
  | bodyNotCount (stage : String)
  | badSortDirection (direction : Value) (path : String)
  | mixedProjection
  | unwindShape
  | unwindWithoutPath
  | unwindPathMark (path : String)
  | countShape
  | facetShape (name : String)

def PipelineFault.message : PipelineFault → String
  | .unknownOperator name => "unknown top-level operator: " ++ name
  | .unknownFieldOperator name => "unknown field operator: " ++ name
  | .operandNotArray operator => operator ++ " value must be an array"
  | .emptyOperand operator => operator ++ " array must not be empty"
  | .operandNotDocuments operator => operator ++ " array elements must be documents"
  | .textWithoutSearch => "$text requires a $search string"
  | .patternNotText => "$regex value must be a string"
  | .badPattern => "bad regex"
  | .textWithoutIndex => "text search requires a text index"
  | .stageShape => "a stage must have exactly one field"
  | .unsupportedStage name => "unsupported stage " ++ name
  | .bodyNotDocument stage => stage ++ " expects a document"
  | .bodyNotCount stage => stage ++ " expects a non-negative integer"
  | .badSortDirection direction path =>
    "bad sort direction " ++ direction.display ++ " for " ++ path
  | .mixedProjection => "cannot mix inclusion and exclusion in $project"
  | .unwindShape => "$unwind expects a path or a document"
  | .unwindWithoutPath => "$unwind requires a path"
  | .unwindPathMark path => "$unwind path " ++ Text.quoted path ++ " must start with '$'"
  | .countShape => "$count expects a field name"
  | .facetShape name => "$facet." ++ name ++ " must be an array of stages"

/-- Why a store has no answer. -/
inductive StoreError where
  /-- the store itself failed -/
  | failed (reason : String)
  /-- a part of a page is not what a page has there -/
  | unexpectedPage (part : String) (value : Value)
  | invalidPipeline (fault : PipelineFault)
  | collectionNotFound (name : String)
  /-- nothing is refused, but a sort has too many rows for an order that is none -/
  | unordered

def StoreError.message : StoreError → String
  | .failed reason => "store error: " ++ reason
  | .unexpectedPage part value =>
    "store error: unexpected facet " ++ part ++ " " ++ value.display
  | .invalidPipeline fault => "invalid pipeline: " ++ fault.message
  | .collectionNotFound name => "collection not found: " ++ name
  | .unordered => "the comparison does not order the rows"

end DocQuery
