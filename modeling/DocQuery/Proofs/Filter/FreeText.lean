import DocQuery.Proofs.Filter.Terms

/-!
# Free-text queries without a text index

Without a text index a free-text query becomes one alternative for each configured field.  These
alternatives join the filters of the request that are marked as alternatives
(`Compiler.mem_any_filterOf_iff`), and a document passes if it satisfies one of all of them
(`Compiler.finds_alternatives_iff`).
-/

namespace DocQuery

open Test

/-! ### Requests -/

namespace Compiler

/-- A pair of a request is a filter, which makes this clause; it may be marked as an alternative. -/
@[mk_iff] structure Filters (c : Compiler) (pair : String × String) (alternative : Bool)
    (clause : Clause) : Prop where
  reserved : c.collection.options.isReserved pair.1 = false
  marked : (Condition.read pair.2).isAlternative = alternative
  made : ∃ next, c.clauseFor pair.1 (Condition.read pair.2) .empty = some (clause, next)

variable {c : Compiler} {request : Request} {pair : String × String} {clause : Clause}

/-- The clause of a pair stands alone, in the list for its mark. -/
theorem mem_pairFilter_iff :
    (clause ∈ (c.pairFilter pair).all ↔ ∃ first, c.Filters pair false first ∧ first.unslotted = clause) ∧
      (clause ∈ (c.pairFilter pair).any ↔
        ∃ first, c.Filters pair true first ∧ first.unslotted = clause) := by
  simp only [filters_iff, pairFilter, addPair]
  cases c.collection.options.isReserved pair.1 with
  | true => simp [Filter.empty, Filter.unslotted]
  | false =>
    rcases c.clauseFor_eq pair.1 (Condition.read pair.2) with hnone | ⟨make, hmake, hsome⟩
    · simp [hnone, Filter.empty, Filter.unslotted]
    · -- but for its clause the filter of the pair is empty
      have hempty : (make .empty).2.unslotted = Filter.empty.unslotted := hmake.filter .empty
      have hall : (make .empty).2.all = [] := List.map_eq_nil_iff.1 (congrArg Filter.all hempty)
      have hany : (make .empty).2.any = [] := List.map_eq_nil_iff.1 (congrArg Filter.any hempty)
      have hmade : ∀ first, (∃ next, some (make .empty) = some (first, next)) ↔
          (make .empty).1 = first := by simp [Prod.ext_iff]
      simp only [hsome, hmade]
      cases (Condition.read pair.2).isAlternative <;>
        simp [Filter.addAll, Filter.addAny, Filter.unslotted, hall, hany, eq_comm]

variable {text : String}

/-- What the searches of a request add. -/
theorem addSearches_empty (hindex : c.catalog.hasTextIndex c.name = false)
    (hquery : option? request c.collection.options.queryKey = some text) (hwords : Text.words text ≠ []) :
    (c.addSearches request .empty).unslotted.any = (Search.queryFields c.collection.options).map
        (Search.fieldClause c.collection ((Text.words text).map Pattern.escape)) ∧
      ∀ clause ∈ (c.addSearches request .empty).unslotted.all, clause.joins = [] := by
  obtain ⟨hall, hany⟩ := Search.freeText_empty hwords c.collection
  unfold addSearches
  simp only [hquery, hindex]
  cases option? request c.collection.options.searchKey with
  | none => exact ⟨hany, by simp [hall]⟩
  | some search =>
    have hadds := Search.normalized_adds search c.collection
      (Search.freeText text false c.collection .empty)
    simp only [hall, hany, List.not_mem_nil, false_or] at hadds
    exact hadds

variable (hindex : c.catalog.hasTextIndex c.name = false)
  (hquery : option? request c.collection.options.queryKey = some text) (hwords : Text.words text ≠ [])

include hindex hquery hwords

/-- The alternatives of a request: its filters that are marked, and one for each field. -/
theorem mem_any_filterOf_iff : clause ∈ (c.filterOf request).unslotted.any ↔
    (∃ pair ∈ request, ∃ first, c.Filters pair true first ∧ first.unslotted = clause) ∨
      ∃ field ∈ Search.queryFields c.collection.options,
        Search.fieldClause c.collection ((Text.words text).map Pattern.escape) field = clause := by
  have hpairs : clause ∈ ((request.map c.pairFilter).foldl (· ++ ·) Filter.empty.unslotted).any ↔
      ∃ pair ∈ request, clause ∈ (c.pairFilter pair).any := by
    rw [Filter.any_foldl_append]
    simp [Filter.empty, Filter.unslotted]
  rw [unslotted_filterOf, Filter.any_append, List.mem_append, hpairs,
    (addSearches_empty hindex hquery hwords).1, List.mem_map]
  simp only [mem_pairFilter_iff.2]

/-- The other clauses of a request: its filters that are not marked, and some without joined clauses. -/
theorem exists_of_mem_all_filterOf (h : clause ∈ (c.filterOf request).unslotted.all) :
    (∃ pair ∈ request, ∃ first, c.Filters pair false first ∧ first.unslotted = clause) ∨
      clause.joins = [] := by
  rw [unslotted_filterOf, Filter.all_append, List.mem_append, Filter.all_foldl_append] at h
  rcases h with hpairs | hsearches
  · have hmem : ∃ pair ∈ request, clause ∈ (c.pairFilter pair).all := by
      simpa [Filter.empty, Filter.unslotted] using hpairs
    obtain ⟨pair, hpair, hclause⟩ := hmem
    exact .inl ⟨pair, hpair, mem_pairFilter_iff.1.1 hclause⟩
  · exact .inr ((addSearches_empty hindex hquery hwords).2 clause hsearches)

variable {store : Store} {base : StoredCollection}

theorem accepted_of_mem_any_filterOf
    (hkeys : ∀ field ∈ Search.queryFields c.collection.options, ∀ key ∈ Path.ofText field,
      isOperatorKey key = false)
    (hterms : Search.Searchable (Text.words text))
    (htargets : ∀ field ∈ Search.queryFields c.collection.options, ∀ here target rest,
      c.collection.foreign? field = some (here, target, rest) → ∃ found, store.find? target = some found)
    (hmarked : ∀ pair ∈ request, ∀ clause, c.Filters pair true clause → clause.Accepted store base) :
    ∀ clause ∈ (c.filterOf request).any, clause.Accepted store base := by
  intro clause hc
  rw [← clause.accepted_unslotted]
  rcases (mem_any_filterOf_iff hindex hquery hwords).1 (List.mem_map_of_mem hc) with
    ⟨pair, hpair, first, hfirst, heq⟩ | ⟨field, hfield, heq⟩
  · rw [← heq, first.accepted_unslotted]
    exact hmarked pair hpair first hfirst
  · rw [← heq]
    exact Search.accepted_fieldClause base (hkeys field hfield) hwords hterms (htargets field hfield)

theorem accepted_of_mem_joins_filterOf
    (hany : ∀ clause ∈ (c.filterOf request).any, clause.Accepted store base)
    (hothers : ∀ pair ∈ request, ∀ clause, c.Filters pair false clause →
      ∀ joined ∈ clause.joins, joined.Accepted store) :
    ∀ joined ∈ (c.filterOf request).joins, joined.Accepted store := by
  intro joined hjoined
  obtain ⟨clause, hc, hjoined⟩ := Clause.mem_joinsOf_iff.1 ((Filter.joins_perm _).mem_iff.1 hjoined)
  rcases List.mem_append.1 hc with hc | hc
  · refine clause.accepted_joins_unslotted.1 ?_ joined hjoined
    rcases exists_of_mem_all_filterOf hindex hquery hwords (List.mem_map_of_mem hc) with
      ⟨pair, hpair, first, hfirst, heq⟩ | hnone
    · rw [← heq, first.accepted_joins_unslotted]
      exact hothers pair hpair first hfirst
    · simp [hnone]
  · exact (hany clause hc).joins joined hjoined

/-- One of the alternatives holds: a filter that is marked, or the clause of some field. -/
theorem exists_holds_any_filterOf_iff
    (hkeys : ∀ field ∈ Search.queryFields c.collection.options, ∀ key ∈ Path.ofText field,
      isOperatorKey key = false)
    (hterms : Search.Searchable (Text.words text)) (doc : Document) (relevance : Nat) :
    (∃ clause ∈ (c.filterOf request).any, clause.Holds (JoinedClause.Holds store doc) doc relevance) ↔
      (∃ pair ∈ request, ∃ clause, c.Filters pair true clause ∧
        clause.Holds (JoinedClause.Holds store doc) doc relevance) ∨
      ∃ field ∈ Search.queryFields c.collection.options,
        Search.FieldContains c.collection store (Text.words text) doc field := by
  have hholds : ∀ clause : Clause, clause.unslotted.Holds (JoinedClause.Holds store doc) doc relevance ↔
      clause.Holds (JoinedClause.Holds store doc) doc relevance := Clause.holds_unslotted fun _ => Iff.rfl
  have hmem : ∀ clause, clause ∈ (c.filterOf request).unslotted.any ↔ _ := fun clause =>
    mem_any_filterOf_iff hindex hquery hwords
  have hfield : ∀ field ∈ Search.queryFields c.collection.options,
      ((Search.fieldClause c.collection ((Text.words text).map Pattern.escape) field).Holds
        (JoinedClause.Holds store doc) doc relevance ↔
          Search.FieldContains c.collection store (Text.words text) doc field) := fun field hfield =>
    Search.holds_fieldClause_iff (hkeys field hfield) hwords hterms
  constructor
  · rintro ⟨clause, hc, hold⟩
    rw [← hholds] at hold
    rcases (hmem clause.unslotted).1 (List.mem_map_of_mem hc) with
      ⟨pair, hpair, first, hfirst, heq⟩ | ⟨field, hmemfield, heq⟩
    · exact .inl ⟨pair, hpair, first, hfirst, (hholds first).1 (heq ▸ hold)⟩
    · exact .inr ⟨field, hmemfield, (hfield field hmemfield).1 (heq ▸ hold)⟩
  · intro hold
    have hunslotted : ∃ clause ∈ (c.filterOf request).unslotted.any,
        clause.Holds (JoinedClause.Holds store doc) doc relevance := by
      rcases hold with ⟨pair, hpair, first, hfirst, hold⟩ | ⟨field, hmemfield, hold⟩
      · exact ⟨_, (hmem _).2 (.inl ⟨pair, hpair, first, hfirst, rfl⟩), (hholds first).2 hold⟩
      · exact ⟨_, (hmem _).2 (.inr ⟨field, hmemfield, rfl⟩), (hfield field hmemfield).2 hold⟩
    obtain ⟨_, hmap, hold⟩ := hunslotted
    obtain ⟨clause, hc, rfl⟩ := List.mem_map.1 hmap
    exact ⟨clause, hc, (hholds clause).1 hold⟩

omit hindex hwords

theorem words_ne_nil_of_option? : Text.words text ≠ [] := by
  obtain ⟨htrim, hne⟩ := Option.filter_eq_some_iff.1 hquery
  obtain ⟨s, -, rfl⟩ := Option.map_eq_some_iff.1 htrim
  exact Text.words_ne_nil_of_trim (bne_iff_ne.1 hne)

end Compiler

/-- **Some configured field contains every term.**  In a collection without a text index a free-text query
is one alternative for each configured field.  If the store accepts the filters of the request and has the
collections that the fields lead to, and the terms are not too long for patterns, then it accepts the
alternatives of the request too, and a document is found with them if and only if one of the filters holds
that are marked as alternatives, or all terms are contained, without regard to case, in the texts at one of
the fields. -/
theorem Compiler.finds_alternatives_iff {c : Compiler} {request : Request} {text : String} {store : Store}
    {base : StoredCollection} (hindex : c.catalog.hasTextIndex c.name = false)
    (hfields : Search.queryFields c.collection.options ≠ [])
    (hkeys : ∀ field ∈ Search.queryFields c.collection.options, ∀ key ∈ Path.ofText field,
      isOperatorKey key = false)
    (htargets : ∀ field ∈ Search.queryFields c.collection.options, ∀ here target rest,
      c.collection.foreign? field = some (here, target, rest) → ∃ found, store.find? target = some found)
    (hquery : option? request c.collection.options.queryKey = some text)
    (hterms : Search.Searchable (Text.words text))
    (hmarked : ∀ pair ∈ request, ∀ clause, c.Filters pair true clause → clause.Accepted store base)
    (hothers : ∀ pair ∈ request, ∀ clause, c.Filters pair false clause →
      ∀ joined ∈ clause.joins, joined.Accepted store) :
    ∃ resolved, (resolveJoined store.source (c.filterOf request).joins).run.run = .ok resolved ∧
      base.Accepts ((c.filterOf request).anyFields resolved) ∧
      ∀ doc, base.Finds ((c.filterOf request).anyFields resolved) doc ↔
        (∃ pair ∈ request, ∃ clause, c.Filters pair true clause ∧
          clause.Holds (JoinedClause.Holds store doc) doc
            (base.row ((c.filterOf request).anyFields resolved) doc).relevance) ∨
        ∃ field ∈ Search.queryFields c.collection.options,
          Search.FieldContains c.collection store (Text.words text) doc field := by
  have hwords := words_ne_nil_of_option? hquery
  have hany := accepted_of_mem_any_filterOf hindex hquery hwords hkeys hterms htargets hmarked
  have hjoins := accepted_of_mem_joins_filterOf hindex hquery hwords hany hothers
  have hne : (c.filterOf request).any ≠ [] := by
    intro hnil
    obtain ⟨field, hfield⟩ := List.exists_mem_of_ne_nil _ hfields
    have hclause : Search.fieldClause c.collection ((Text.words text).map Pattern.escape) field ∈
        (c.filterOf request).unslotted.any :=
      (mem_any_filterOf_iff hindex hquery hwords).2 (.inr ⟨field, hfield, rfl⟩)
    simp [Filter.unslotted, hnil] at hclause
  obtain ⟨resolved, hresolved, hids⟩ := exists_idsAre_of_accepted (c.slotted_filterOf request) hjoins
  obtain ⟨haccepts, hfinds⟩ := Filter.finds_anyFields_iff hne hany hids
  refine ⟨resolved, hresolved, haccepts, fun doc => ?_⟩
  rw [hfinds]
  exact exists_holds_any_filterOf_iff hindex hquery hwords hkeys hterms doc _

/-! ### The posts of an author with two names -/

namespace PostsByWords

def collection : Collection :=
  ⟨[("author", ⟨.objectId, some "people", false⟩), ("tag", ⟨.string, none, false⟩)], [],
    { Options.standard with queryFields := some "title author.names" }⟩

def compiler : Compiler := ⟨[("people", Collection.empty), ("posts", collection)], "posts", collection, []⟩

def ann : Document := [("_id", .int32 1), ("names", .array [.string "Ann", .string "Lee-Hart"])]

def post : Document := [("_id", .int32 7), ("title", .string "On bread"), ("author", .int32 1)]

def posts : StoredCollection := ⟨[post], []⟩

def store : Store := ⟨[("people", ⟨[ann], []⟩), ("posts", posts)], ⟨0⟩, 0⟩

/-- What is tagged, or has both words somewhere. -/
def request : Request := [("tag", "\x7b$or\x7drust"), ("$q", "LEE ann")]

theorem eq_of_filters {pair : String × String} (hpair : pair ∈ request) {alternative : Bool}
    {clause : Clause} (h : compiler.Filters pair alternative clause) :
    alternative = true ∧ clause = .field "tag" (.string "rust") := by
  have hread : Condition.read "\x7b$or\x7drust" = ⟨true, "rust", [⟨none, "rust"⟩]⟩ := by decide +kernel
  rcases List.mem_pair.1 hpair with rfl | rfl
  · obtain ⟨next, hnext⟩ := h.made
    have hmarked := h.marked
    rw [hread] at hnext hmarked
    cases hmarked
    cases hnext
    exact ⟨rfl, rfl⟩
  · exact absurd h.reserved (by decide)

theorem found_by_words : ∃ resolved,
    (resolveJoined store.source (compiler.filterOf request).joins).run.run = .ok resolved ∧
      posts.Finds ((compiler.filterOf request).anyFields resolved) post := by
  have hwords : Text.words "LEE ann" = ["LEE", "ann"] := by decide +kernel
  have hfields : Search.queryFields compiler.collection.options = ["title", "author.names"] := by
    decide +kernel
  have htitle : compiler.collection.foreign? "title" = none := by decide +kernel
  have hnames : compiler.collection.foreign? "author.names" = some ("author", "people", "names") := by
    decide +kernel
  have hterms : Search.Searchable (Text.words "LEE ann") := by
    rw [hwords]
    decide +kernel
  have htargets : ∀ field ∈ Search.queryFields compiler.collection.options, ∀ here target rest,
      compiler.collection.foreign? field = some (here, target, rest) →
        ∃ found, store.find? target = some found := by
    rw [hfields]
    intro field hfield here target rest hforeign
    rcases List.mem_pair.1 hfield with rfl | rfl
    · rw [htitle] at hforeign
      cases hforeign
    · rw [hnames] at hforeign
      cases hforeign
      exact ⟨_, rfl⟩
  have hmarked : ∀ pair ∈ request, ∀ clause, compiler.Filters pair true clause →
      clause.Accepted store posts := by
    intro pair hpair clause h
    rw [(eq_of_filters hpair h).2]
    exact ⟨⟨_, rfl⟩, by simp [Clause.joins]⟩
  have hothers : ∀ pair ∈ request, ∀ clause, compiler.Filters pair false clause →
      ∀ joined ∈ clause.joins, joined.Accepted store := by
    intro pair hpair clause h
    cases (eq_of_filters hpair h).1
  obtain ⟨resolved, hresolved, -, hfinds⟩ := compiler.finds_alternatives_iff (by decide +kernel)
    (by simp [hfields]) (by rw [hfields]; decide +kernel) htargets (by decide +kernel) hterms hmarked hothers
  refine ⟨resolved, hresolved, (hfinds post).2 (.inr ⟨"author.names", by simp [hfields], ?_⟩)⟩
  rw [Search.FieldContains, hnames]
  refine ⟨_, rfl, ann, by simp, ?_, .int32 1, rfl, by decide +kernel⟩
  have hvalues : valuesAt ann "names" =
      [.array [.string "Ann", .string "Lee-Hart"], .string "Ann", .string "Lee-Hart"] := by rfl
  rw [hwords, Search.ContainsEach, hvalues]
  refine List.forall_mem_cons.2 ⟨⟨"Lee-Hart", by simp, by decide +kernel⟩, ?_⟩
  exact List.forall_mem_singleton.2 ⟨"Ann", by simp, by decide +kernel⟩

end PostsByWords

end DocQuery
