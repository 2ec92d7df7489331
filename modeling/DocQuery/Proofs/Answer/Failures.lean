import DocQuery.Proofs.Answer.LeftOpen
import DocQuery.Proofs.Filter.TextSearch

/-!
# Why a request has no answer

`Compiler.Refused` lists the reasons for which a request fails: one of its two texts cannot be read, a
collection is not there, or a store refuses a filter.  On a store that was made for a sound catalog these are
all of them (`Querier.find_fails_iff`); all that can happen besides is that the answer is left open by a sort
(`Compiler.LeftOpen`).  A request that is not refused is compiled
(`Catalog.Sound.exists_compile_eq_ok_iff`), the ids of its joined clauses are fetched
(`exists_resolveJoined_eq_ok_iff`), and its pipeline runs (`Compiler.exists_execute_eq_ok_iff`).
-/

namespace DocQuery

open Execution Selection

/-! ### Compiling -/

namespace Compiler

variable (c : Compiler) (request : Request)

/-- The text of the fields that a request selects; there is none if it asks for all fields. -/
def fieldsText : Option String :=
  if c.wantsAllFields request then none
  else (option? request c.collection.options.fieldsKey).or c.collection.options.defaultFields

/-- The text of the order that a request asks for, or else of the one that the collection has by
default; a text search without an order goes by the relevance. -/
def orderText : Option String :=
  (option? request c.collection.options.sortKey).or
    (if c.searchesText request then none else c.collection.options.defaultSort)

variable {c request}

theorem exists_selectionOf_eq_ok_iff : (∃ selection, c.selectionOf request = .ok selection) ↔
    ∀ text, c.fieldsText request = some text → ∃ tree, Selection.read included text = .ok tree := by
  unfold selectionOf fieldsText
  dsimp only
  cases (option? request c.collection.options.fieldsKey).or c.collection.options.defaultFields with
  | none => simp
  | some text =>
    by_cases hall : c.wantsAllFields request = true
    · simp [hall]
    · simp [hall, Selection.readOrError, Outcome.map_eq_ok_iff, Outcome.mapError_eq_ok_iff]

theorem exists_orderOf_eq_ok_iff : (∃ order, c.orderOf request = .ok order) ↔
    ∀ text, c.orderText request = some text → ∃ keys, SortKeys.read text = .ok keys := by
  unfold orderOf orderText SortOrder.compile SortOrder.effectiveKeys
  cases option? request c.collection.options.sortKey with
  | some text => simp [Outcome.map_eq_ok_iff, Outcome.mapError_eq_ok_iff]
  | none =>
    by_cases hsearch : c.searchesText request = true
    · simp [hsearch, Except.map]
    · cases c.collection.options.defaultSort with
      | none => simp [hsearch, Except.map]
      | some text => simp [hsearch, Outcome.map_eq_ok_iff, Outcome.mapError_eq_ok_iff]

end Compiler

/-- A catalog of collections with distinct names, whose protected fields can be read and whose declared
fields are not named like operators. -/
structure Catalog.Sound (catalog : Catalog) : Prop where
  distinct : Keyed.Distinct catalog
  protectedFields : ∀ entry ∈ catalog, ∃ hidden, entry.2.protectedSelection = .ok hidden
  names : ∀ entry ∈ catalog, entry.2.NamesFields

namespace Catalog.Sound

variable {catalog : Catalog} (h : catalog.Sound)
include h

theorem exists_stripJoins_eq_ok (joins : List Join) :
    ∃ stripped, Compiler.stripJoins catalog joins = .ok stripped := by
  induction joins with
  | nil => exact ⟨[], rfl⟩
  | cons join rest ih =>
    obtain ⟨others, hothers⟩ := ih
    have hstrip : ∃ new, Compiler.strip catalog join = .ok new := by
      unfold Compiler.strip
      cases htarget : catalog.find? join.collection with
      | none => exact ⟨join, rfl⟩
      | some target =>
        obtain ⟨hidden, hhidden⟩ := h.protectedFields _ (Keyed.mem_of_lookup htarget)
        dsimp only at hhidden
        simp only [hhidden]
        exact ⟨_, rfl⟩
    obtain ⟨new, hnew⟩ := hstrip
    rw [Compiler.stripJoins_cons, hnew, Outcome.ok_bind, hothers]
    exact ⟨_, rfl⟩

/-- With a sound catalog only the two texts can be malformed. -/
theorem exists_compile_eq_ok_iff {c : Compiler} (hc : c.catalog = catalog) {request : Request} :
    (∃ query, c.compile request = .ok query) ↔
      (∀ text, c.fieldsText request = some text → ∃ tree, Selection.read included text = .ok tree) ∧
        ∀ text, c.orderText request = some text → ∃ keys, SortKeys.read text = .ok keys := by
  rw [← Compiler.exists_selectionOf_eq_ok_iff, ← Compiler.exists_orderOf_eq_ok_iff]
  constructor
  · rintro ⟨query, hquery⟩
    obtain ⟨selection, joins, order, hselection, -, horder, -⟩ := Compiler.compile_eq_ok_iff.1 hquery
    exact ⟨⟨selection, hselection⟩, order, horder⟩
  · rintro ⟨⟨selection, hselection⟩, order, horder⟩
    have hjoins : ∃ joins, c.joinsFor selection = .ok joins := by
      cases selection with
      | none => exact ⟨[], rfl⟩
      | some selection =>
        subst hc
        exact h.exists_stripJoins_eq_ok _
    obtain ⟨joins, hjoins⟩ := hjoins
    exact ⟨_, Compiler.compile_eq_ok_iff.2
      ⟨selection, joins, order, hselection, hjoins, horder, rfl⟩⟩

end Catalog.Sound

/-! ### The ids of joined clauses -/

section Store

variable {store : Store}

/-- What a store answers to a pipeline that begins with a match stage, it accepts. -/
theorem Store.accepts_of_execute {name : String} {body : Document} {rest docs : List Document}
    (h : store.execute name (Stage.toDocument (.filter body) :: rest) = .ok docs) :
    ∃ base, store.find? name = some base ∧ base.Accepts body := by
  unfold Store.execute at h
  split at h
  · cases h
  · next base hbase =>
    obtain ⟨rows, hrows, -⟩ := Outcome.map_eq_ok_iff.1 h
    rw [runStages_cons, runStage_filter] at hrows
    obtain ⟨passed, hpassed, -⟩ := Outcome.bind_eq_ok_iff.1 hrows
    exact ⟨base, hbase, passed, hpassed⟩

/-- The ids of joined clauses are fetched if the store accepts each of them. -/
theorem exists_resolveJoined_eq_ok_iff {clauses : List JoinedClause} :
    (∃ resolved, (resolveJoined store.source clauses).run.run = .ok resolved) ↔
      ∀ clause ∈ clauses, clause.Accepted store := by
  constructor
  · rintro ⟨resolved, hresolved⟩
    induction clauses generalizing resolved with
    | nil => simp
    | cons clause rest ih =>
      obtain ⟨docs, hdocs, hresolved⟩ := Outcome.run_bind_eq_ok_iff.1 hresolved
      obtain ⟨others, hothers, -⟩ := Outcome.run_bind_eq_ok_iff.1 hresolved
      exact List.forall_mem_cons.2 ⟨Store.accepts_of_execute hdocs, ih others hothers⟩
  · intro h
    obtain ⟨resolved, hresolved, -⟩ := resolveJoined_eq_ok h
    exact ⟨resolved, hresolved⟩

end Store

/-! ### The pipeline -/

/-- The pipeline of a query runs if the store accepts the filter, and the rows that pass it can be sorted. -/
theorem Compiler.exists_execute_eq_ok_iff {store : Store} {c : Compiler} {request : Request}
    {query : Query} (h : c.compile request = .ok query)
    (hprotected : c.collection.protectedSelection = .ok c.protectedFields)
    {base : StoredCollection} (hbase : store.find? query.collection = some base)
    (resolved : ResolvedIds) :
    (∃ docs, store.execute query.collection
      ((query.pipeline .find resolved []).map Stage.toDocument) = .ok docs) ↔
      ∃ rows, runMatch base.textIndex (base.docs.map Row.ofDocument) (query.filter.toDocument resolved) =
        .ok rows ∧ Sortable (Row.compare query.order.here) rows := by
  obtain ⟨shape, hshape⟩ := exists_execute_eq h hprotected hbase resolved
  simp only [hshape, Outcome.map_eq_ok_iff, Outcome.bind_eq_ok_iff, Row.sort, stableSort_eq_ok_iff]
  constructor
  · rintro ⟨_, _, ⟨rows, hrows, hsortable, -⟩, -⟩
    exact ⟨rows, hrows, hsortable⟩
  · rintro ⟨rows, hrows, hsortable⟩
    exact ⟨_, _, ⟨rows, hrows, hsortable, rfl⟩, rfl⟩

/-! ### Requests that are refused -/

/-- Why a request to a collection of a store has no answer. -/
inductive Compiler.Refused (c : Compiler) (store : Store) (request : Request) : Prop
  /-- the selected fields are malformed -/
  | fields {text : String} {fault : Selection.Fault} (htext : c.fieldsText request = some text)
    (hread : Selection.read included text = .error fault)
  /-- the order is malformed -/
  | order {text : String} {fault : SortKeys.Fault} (htext : c.orderText request = some text)
    (hread : SortKeys.read text = .error fault)
  /-- a joined clause asks for a collection that is not there -/
  | clauseTarget {clause : JoinedClause} (hclause : clause ∈ (c.filterOf request).joins)
    (htarget : store.find? clause.collection = none)
  /-- a join has an id in the batch, and its collection is not there -/
  | joinTarget {query : Query} {docs : List Document} {join : Join}
    (hquery : c.compile request = .ok query) (hdocs : query.Finds store [] docs)
    (hjoin : join ∈ query.joins) (hids : Join.idsIn docs join.field ≠ [])
    (htarget : store.find? join.collection = none)
  /-- the store refuses the filter; which ids are filed makes no difference -/
  | filter {base : StoredCollection} {resolved : ResolvedIds}
    (hbase : store.find? c.name = some base)
    (hrefused : ¬base.Accepts ((c.filterOf request).toDocument resolved))
  /-- the store refuses the condition of a joined clause -/
  | condition {clause : JoinedClause} {target : StoredCollection}
    (hclause : clause ∈ (c.filterOf request).joins)
    (htarget : store.find? clause.collection = some target)
    (hrefused : ¬target.Accepts clause.condition)

/-- The store accepts all joined clauses unless one is refused. -/
theorem Compiler.accepted_or_refused {c : Compiler} {store : Store} {request : Request} :
    (∀ clause ∈ (c.filterOf request).joins, clause.Accepted store) ∨ c.Refused store request := by
  by_cases h : ∀ clause ∈ (c.filterOf request).joins, clause.Accepted store
  · exact .inl h
  · right
    push Not at h
    obtain ⟨clause, hclause, hnot⟩ := h
    cases htarget : store.find? clause.collection with
    | none => exact .clauseTarget hclause htarget
    | some target => exact .condition hclause htarget fun haccepts => hnot ⟨target, htarget, haccepts⟩

section Find

variable {store : Store} {catalog : Catalog} {name : String} {c : Compiler} {request : Request}
  {base : StoredCollection}

/-- A request that is compiled has an answer unless it is refused or left open. -/
theorem Querier.find_of_compiled {query : Query} (hc : Compiler.new catalog name = .ok c)
    (hquery : c.compile request = .ok query) (hbase : store.find? name = some base)
    (h : ¬c.Refused store request) (hopen : ¬c.LeftOpen store request) :
    ∃ docs, ((store.querier catalog name).find request []).run.run = .ok docs := by
  obtain ⟨-, rfl, -, hprotected⟩ := Compiler.new_eq_ok_iff.1 hc
  have hmeans := Compiler.means_of_compile hquery
  have hcompile : (store.querier catalog c.name).compile request = .ok query := by
    rw [Querier.compile, hc, Outcome.ok_bind, hquery]
  rw [← hmeans.collection] at hbase
  -- its pipeline runs
  obtain ⟨resolved, hresolved⟩ := exists_resolveJoined_eq_ok_iff.2
    (Compiler.accepted_or_refused.resolve_right h)
  rw [← hmeans.filter] at hresolved
  obtain ⟨rows, hrows⟩ : base.Accepts (query.filter.toDocument resolved) := by
    rw [hmeans.filter]
    exact by_contra fun hrefused => h (.filter (hmeans.collection ▸ hbase) hrefused)
  have hsortable : Sortable (Row.compare query.order.here) rows :=
    by_contra fun hnot => hopen (.rows hquery ⟨resolved, base, hresolved, hbase, hrows⟩ hnot)
  obtain ⟨found, hfound⟩ := (Compiler.exists_execute_eq_ok_iff hquery hprotected hbase resolved).2
    ⟨rows, hrows, hsortable⟩
  -- its joins are answered
  have hanswers : ∀ join ∈ query.joins, Join.idsIn found join.field ≠ [] →
      ∃ got, Join.answer store found join = .ok got := by
    intro join hjoin hids
    cases htarget : store.find? join.collection with
    | none => exact absurd (.joinTarget hquery ⟨resolved, hresolved, hfound⟩ hjoin hids htarget) h
    | some target =>
      exact Join.exists_fetch_eq_ok htarget ((planned_of_compile hcompile).2 join hjoin) _
  have hjoined := (Join.resolve_eq_ok_iff store found).2 ⟨hanswers, rfl⟩
  -- what they give is sorted
  have hlast : Sortable (query.order.afterJoins.compareValues Document.valueAt) _ :=
    by_contra fun hnot => hopen (.joined hquery ⟨resolved, hresolved, hfound⟩ hjoined hnot)
  have hfinish : ((store.querier catalog c.name).finish query found).run.run = .ok _ :=
    finish_eq_ok_iff.2 ⟨_, hjoined, (sortDocuments_eq _ _).trans (stableSort_eq_ok_iff.2 ⟨hlast, rfl⟩)⟩
  exact ⟨_, find_eq_ok_iff.2 ⟨query, resolved, prepare_eq_ok_iff.2 ⟨hcompile, hresolved⟩, found,
    hfound, hfinish⟩⟩

theorem Querier.find_of_not_refused (hcatalog : catalog.Sound)
    (hc : Compiler.new catalog name = .ok c) (hbase : store.find? name = some base)
    (h : ¬c.Refused store request) (hopen : ¬c.LeftOpen store request) :
    ∃ docs, ((store.querier catalog name).find request []).run.run = .ok docs := by
  have hcat := (Compiler.new_eq_ok_iff.1 hc).1
  obtain ⟨query, hquery⟩ : ∃ query, c.compile request = .ok query := by
    refine (hcatalog.exists_compile_eq_ok_iff hcat).2 ⟨fun text htext => ?_, fun text htext => ?_⟩
    · cases hread : Selection.read included text with
      | ok tree => exact ⟨tree, rfl⟩
      | error fault => exact absurd (.fields htext hread) h
    · cases hread : SortKeys.read text with
      | ok keys => exact ⟨keys, rfl⟩
      | error fault => exact absurd (.order htext hread) h
  exact find_of_compiled hc hquery hbase h hopen

/-- A request whose filter passes some rows is not refused, if the collections of its joins are there as far
as they are asked for. -/
theorem Compiler.not_refused_of_passes (hcatalog : catalog.Sound) (hc : Compiler.new catalog name = .ok c)
    {query : Query} {rows : List Row} (hquery : c.compile request = .ok query)
    (hpasses : query.Passes store rows)
    (hjoins : ∀ docs, query.Finds store [] docs → ∀ join ∈ query.joins,
      Join.idsIn docs join.field ≠ [] → store.find? join.collection ≠ none) :
    ¬c.Refused store request := by
  obtain ⟨hcat, -, -, -⟩ := Compiler.new_eq_ok_iff.1 hc
  obtain ⟨resolved, base, hresolved, hbase, hrows⟩ := hpasses
  have hmeans := Compiler.means_of_compile hquery
  rw [hmeans.collection] at hbase
  have haccepted := exists_resolveJoined_eq_ok_iff.1 ⟨resolved, hresolved⟩
  rw [hmeans.filter] at haccepted hrows
  obtain ⟨hfields, horder⟩ := (hcatalog.exists_compile_eq_ok_iff hcat).1 ⟨query, hquery⟩
  intro hrefused
  cases hrefused with
  | fields htext hread =>
    obtain ⟨tree, htree⟩ := hfields _ htext
    rw [htree] at hread
    cases hread
  | order htext hread =>
    obtain ⟨keys, hkeys⟩ := horder _ htext
    rw [hkeys] at hread
    cases hread
  | clauseTarget hclause htarget =>
    obtain ⟨target, hfound, -⟩ := haccepted _ hclause
    rw [htarget] at hfound
    cases hfound
  | condition hclause htarget hrefused =>
    obtain ⟨target, hfound, haccepts⟩ := haccepted _ hclause
    obtain rfl := Option.some.inj (htarget.symm.trans hfound)
    exact hrefused haccepts
  | @filter other ids hother hrefused =>
    obtain rfl : base = other := Option.some.inj (hbase.symm.trans hother)
    exact hrefused ((Filter.accepts_toDocument_iff base ids resolved _).2 ⟨rows, hrows⟩)
  | @joinTarget other docs join hother hdocs hjoin hids htarget =>
    obtain rfl : query = other := Except.ok.inj (hquery.symm.trans hother)
    exact hjoins docs hdocs join hjoin hids htarget

/-- Nor is a request refused whose joins are fetched for what its pipeline finds. -/
theorem Compiler.not_refused_of_resolve (hcatalog : catalog.Sound)
    (hc : Compiler.new catalog name = .ok c) {query : Query} {found joined : List Document}
    (hquery : c.compile request = .ok query) (hfound : query.Finds store [] found)
    (hjoined : (Join.resolve store.source query.joins found).run.run = .ok joined) :
    ¬c.Refused store request := by
  have hprotected := (Compiler.new_eq_ok_iff.1 hc).2.2.2
  obtain ⟨resolved, hresolved, hrun⟩ := hfound
  have hpasses : ∃ rows, query.Passes store rows := by
    cases hbase : store.find? query.collection with
    | none =>
      rw [Store.execute, hbase] at hrun
      cases hrun
    | some base =>
      obtain ⟨rows, hrows, -⟩ := (exists_execute_eq_ok_iff hquery hprotected hbase resolved).1 ⟨found, hrun⟩
      exact ⟨rows, resolved, base, hresolved, hbase, hrows⟩
  obtain ⟨rows, hpasses⟩ := hpasses
  refine not_refused_of_passes hcatalog hc hquery hpasses fun docs hdocs join hjoin hids htarget => ?_
  obtain ⟨others, hothers, hdocs⟩ := hdocs
  obtain rfl : resolved = others := Except.ok.inj (hresolved.symm.trans hothers)
  obtain rfl : found = docs := Except.ok.inj (hrun.symm.trans hdocs)
  obtain ⟨got, hgot⟩ := ((Join.resolve_eq_ok_iff store found).1 hjoined).1 join hjoin hids
  have hmissing : Join.answer store found join = .error (.collectionNotFound join.collection) := by
    show store.execute _ _ = _
    rw [Store.execute, htarget]
  rw [hmissing] at hgot
  cases hgot

theorem Querier.not_refused_of_find (hcatalog : catalog.Sound)
    (hc : Compiler.new catalog name = .ok c) {docs : List Document}
    (h : ((store.querier catalog name).find request []).run.run = .ok docs) :
    ¬c.Refused store request := by
  obtain ⟨query, resolved, hprepare, found, hfound, hfinish⟩ := find_eq_ok_iff.1 h
  obtain ⟨hcompile, hresolved⟩ := prepare_eq_ok_iff.1 hprepare
  rw [Querier.compile, hc, Outcome.ok_bind] at hcompile
  obtain ⟨joined, hjoined, -⟩ := finish_eq_ok_iff.1 hfinish
  exact Compiler.not_refused_of_resolve hcatalog hc hcompile ⟨resolved, hresolved, hfound⟩ hjoined

/-- What is left open is not refused. -/
theorem Compiler.LeftOpen.not_refused (hcatalog : catalog.Sound)
    (hc : Compiler.new catalog name = .ok c) (h : c.LeftOpen store request) :
    ¬c.Refused store request := by
  cases h with
  | joined hquery hdocs hjoined _ => exact not_refused_of_resolve hcatalog hc hquery hdocs hjoined
  | @rows query rows hquery hrows hopen =>
    have hprotected := (Compiler.new_eq_ok_iff.1 hc).2.2.2
    refine not_refused_of_passes hcatalog hc hquery hrows fun docs hdocs => ?_
    -- the pipeline finds nothing, so that no join is asked for
    obtain ⟨resolved, base, hresolved, hbase, hrows⟩ := hrows
    obtain ⟨others, hothers, hdocs⟩ := hdocs
    obtain rfl : resolved = others := Except.ok.inj (hresolved.symm.trans hothers)
    rw [(execute_eq_unordered_iff hquery hprotected resolved).2 ⟨base, rows, hbase, hrows, hopen⟩] at hdocs
    cases hdocs

end Find

/-! ### Posts of people who are not there -/

namespace PostsOfNobody

def collection : Collection :=
  ⟨[("author", ⟨.objectId, some "people", false⟩)], [], .standard⟩

def catalog : Catalog := [("posts", collection)]

def compiler : Compiler := ⟨catalog, "posts", collection, []⟩

def clause : JoinedClause := ⟨0, "author", "people", [("name", .string "Ann")]⟩

theorem filterOf_eq :
    compiler.filterOf [("author.name", "Ann")] = ⟨[.joined clause], [], none, 1⟩ := by
  have hread : Condition.read "Ann" = ⟨false, "Ann", [⟨none, "Ann"⟩]⟩ := by decide +kernel
  simp only [Compiler.filterOf, List.foldl_cons, List.foldl_nil, Compiler.addPair, hread]
  rfl

def store : Store :=
  ((Store.forCatalog ⟨0⟩ catalog).insertMany "posts" [[("_id", .int32 7), ("author", .int32 2)]]).2

end PostsOfNobody

end DocQuery
