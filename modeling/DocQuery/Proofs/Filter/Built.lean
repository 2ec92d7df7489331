import DocQuery.Query.Compile

/-!
# How the filter of a request is built

The filter of a request is built from the empty one, one step after the other (`Compiler.built_filterOf`).
A step adds a clause to one of the two lists of the filter, or sets the text to search for where there is
an index.  The clause is one for the own fields of the collection, or it is joined and takes the next slot.
What holds of the filters of all requests is proved along `Filter.Built`.
-/

namespace DocQuery

/-- The clauses for the own fields of a collection. -/
inductive Clause.Own (collection : Collection) : Clause → Prop
  | declared {key : String} {info : FieldInfo} (h : collection.info? key = some info)
    (condition : Value) : Own collection (.field key condition)
  /-- at a path that goes into a field -/
  | dotted {key : String} (h : '.' ∈ key.toList) (condition : Value) :
    Own collection (.field key condition)
  /-- for the words of a free-text query -/
  | words (path : String) (patterns : List String) :
    Own collection (Search.containsAll path patterns)
  /-- for a normalized text -/
  | normalized (fields : List String) (pattern : String) :
    Own collection
      (.any (fields.map fun field => .field field (.document [("$regex", .string pattern)])))

namespace Filter

/-- A clause to be added to the filter in front of it: one for own fields, or a joined one with the slot
that was the next one. -/
inductive Adds (collection : Collection) (filter : Filter) : Clause → Filter → Prop
  | own {clause : Clause} (h : clause.Own collection) : Adds collection filter clause filter
  | joined (field target : String) (condition : Document) :
    Adds collection filter (filter.newJoin field target condition).1
      (filter.newJoin field target condition).2

/-- The filters that are built from the empty one by the steps of requests. -/
inductive Built (collection : Collection) (hasIndex : Bool) : Filter → Prop
  | empty : Built collection hasIndex .empty
  | addAll {filter next : Filter} {clause : Clause} (h : Built collection hasIndex filter)
    (hadds : filter.Adds collection clause next) : Built collection hasIndex (next.addAll clause)
  | addAny {filter next : Filter} {clause : Clause} (h : Built collection hasIndex filter)
    (hadds : filter.Adds collection clause next) : Built collection hasIndex (next.addAny clause)
  | search {filter : Filter} (h : Built collection hasIndex filter) (hindex : hasIndex = true)
    (text : String) : Built collection hasIndex { filter with text := some text }

end Filter

/-! ### Searches -/

namespace Search

variable {collection : Collection} {hasIndex : Bool} {filter : Filter}

theorem built_addField (patterns : List String) (h : filter.Built collection hasIndex)
    (field : String) : (addField collection patterns filter field).Built collection hasIndex := by
  unfold addField
  split
  · exact h.addAny (.joined _ _ _)
  · exact h.addAny (.own (.words field patterns))

theorem built_freeText (query : String) (h : filter.Built collection hasIndex) :
    (freeText query hasIndex collection filter).Built collection hasIndex := by
  unfold freeText
  split
  · next hindex => exact h.search hindex query
  · split
    · exact h
    · exact List.foldlRecOn _ _ h fun filter h field _ => built_addField _ h field

theorem built_normalized (text : String) (h : filter.Built collection hasIndex) :
    (normalized text collection filter).Built collection hasIndex := by
  unfold normalized
  dsimp only
  split
  · exact h
  · split
    · exact h
    · exact h.addAll (.own (.normalized _ _))

end Search

/-! ### Requests -/

namespace Compiler

variable (c : Compiler) {hasIndex : Bool} {filter : Filter}

theorem adds_of_clauseFor {key : String} {condition : Condition} {clause : Clause} {next : Filter}
    (h : c.clauseFor key condition filter = some (clause, next)) :
    filter.Adds c.collection clause next := by
  unfold clauseFor at h
  split at h
  · next info hinfo =>
    cases h
    exact .own (.declared hinfo _)
  · split at h
    · cases h
      exact .joined _ _ _
    · split at h
      · next hdot =>
        cases h
        exact .own (.dotted (by simpa using hdot) _)
      · cases h

theorem built_addPair (h : filter.Built c.collection hasIndex) (pair : String × String) :
    (c.addPair filter pair).Built c.collection hasIndex := by
  unfold addPair
  split
  · exact h
  · dsimp only
    split
    · next clause next hclause =>
      have hadds := c.adds_of_clauseFor hclause
      split
      · exact h.addAny hadds
      · exact h.addAll hadds
    · exact h

/-- The filter of a request is built by these steps. -/
theorem built_filterOf (request : Request) :
    (c.filterOf request).Built c.collection (c.catalog.hasTextIndex c.name) := by
  have hpairs : (request.foldl c.addPair .empty).Built c.collection (c.catalog.hasTextIndex c.name) :=
    List.foldlRecOn _ _ .empty fun _ h pair _ => c.built_addPair h pair
  unfold filterOf
  dsimp only
  split
  · split
    · exact Search.built_normalized _ (Search.built_freeText _ hpairs)
    · exact Search.built_normalized _ hpairs
  · split
    · exact Search.built_freeText _ hpairs
    · exact hpairs

end Compiler

end DocQuery
