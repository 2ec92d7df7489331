import DocQuery.Path
import DocQuery.SortOrder
import DocQuery.StableSort
import DocQuery.Store.Error
import DocQuery.Text.Lowercase
import DocQuery.Value.Order

/-!
# Rows

A document on its way through a pipeline carries its relevance: how many of the words in its indexed
texts are among the words of the last text search. Rows are ordered by sort keys; a value that is
missing is ordered as null. The comparison of values is no order on all of them, so that many rows can
have no order: sorting them has no result.
-/

namespace DocQuery

/-- A document and how well it fits the last text search. -/
structure Row where
  doc : Document
  relevance : Nat

namespace Row

/-- The row of a document that no search has looked at. -/
def ofDocument (doc : Document) : Row := ⟨doc, 0⟩

/-! ### Relevance -/

/-- The words of a text: its runs of letters and numbers, in lower case. -/
def searchWords (text : String) : List String :=
  (Text.runsBetween (fun c => !Text.isAlphanumeric c) text.toList).map fun run =>
    Text.lower (String.ofList run)

/-- The words of a value; only texts have words. -/
def wordsOf : Value → List String
  | .string text => searchWords text
  | _ => []

/-- The words at the indexed paths of a document. -/
def indexedWords (textIndex : List String) (doc : Document) : List String :=
  textIndex.flatMap fun path => (Path.leaves doc (Path.ofText path)).flatMap wordsOf

/-- How many words at the indexed paths of a document are among those of a search. -/
def relevanceOf (textIndex search : List String) (doc : Document) : Nat :=
  (indexedWords textIndex doc).countP search.contains

/-! ### Order -/

/-- The order of two documents by what they hold at a path. -/
def compareAt (path : String) (a b : Document) : Ordering :=
  ((Path.get a (Path.ofText path)).getD .null).compare ((Path.get b (Path.ofText path)).getD .null)

/-- The order of two rows by one sort key. -/
def compareBy (key : String × Direction) (a b : Row) : Ordering :=
  match key.2 with
  | .ascending => compareAt key.1 a.doc b.doc
  | .descending => compareAt key.1 b.doc a.doc
  | .relevance => Ord.compare b.relevance a.relevance

/-- The order of two rows by sort keys: the first one that tells them apart decides. -/
def compare (keys : SortKeys) (a b : Row) : Ordering :=
  keys.foldr (fun key rest => (compareBy key a b).then rest) .eq

/-- Rows in the order of sort keys; equal rows keep their order. -/
def sort (keys : SortKeys) (rows : List Row) : Except StoreError (List Row) :=
  stableSort .unordered (compare keys) rows

end Row

/-- Documents in the order of sort keys. -/
def sortDocuments (keys : SortKeys) (docs : List Document) : Except StoreError (List Document) :=
  (Row.sort keys (docs.map Row.ofDocument)).map fun sorted => sorted.map Row.doc

end DocQuery
