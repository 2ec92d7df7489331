import DocQuery.Catalog.Basic
import DocQuery.Pattern.Literal
import DocQuery.Query.Filter
import DocQuery.Text.Alphanumeric
import DocQuery.Text.Lowercase

/-!
# Searching for text

A free-text query is left to the text index of a collection that has one. Elsewhere it means that
one of the configured fields contains every word. A search for normalized text means that one of
the configured fields contains the letters and numbers of the request in lower case.
-/

namespace DocQuery.Search

/-- The letters and numbers of a text, each in lower case. -/
def normalize (s : String) : String :=
  String.ofList ((s.toList.filter Text.isAlphanumeric).flatMap Text.lowerChar)

/-- Each of the patterns is found, without regard to case, in some text at a path. -/
def containsAll (path : String) (patterns : List String) : Clause :=
  .all (patterns.map fun pattern =>
    .field path (.document [("$regex", .string pattern), ("$options", .string "i")]))

/-- The fields that a free-text query looks into. -/
def queryFields (options : Options) : List String :=
  match options.queryFields with
  | some fields => Text.words fields
  | none => []

/-- One more field that may contain all the patterns, in this collection or in a referenced one. -/
def addField (collection : Collection) (patterns : List String) (filter : Filter)
    (field : String) : Filter :=
  match collection.foreign? field with
  | some (here, target, rest) =>
    let (clause, filter) := filter.newJoin here target ((containsAll rest patterns).toDocument [])
    filter.addAny clause
  | none => filter.addAny (containsAll field patterns)

/-- The filter with a free-text query. -/
def freeText (query : String) (hasIndex : Bool) (collection : Collection) (filter : Filter) :
    Filter :=
  if hasIndex then { filter with text := some query }
  else
    match (Text.words query).map Pattern.escape with
    | [] => filter
    | patterns => (queryFields collection.options).foldl (addField collection patterns) filter

/-- The filter with a search for normalized text. -/
def normalized (text : String) (collection : Collection) (filter : Filter) : Filter :=
  let needle := normalize text
  if needle = "" then filter
  else
    match collection.options.searchFields with
    | [] => filter
    | fields =>
      filter.addAll (.any (fields.map fun field =>
        .field field (.document [("$regex", .string (Pattern.escape needle))])))

end DocQuery.Search
