import DocQuery.Proofs.Answer.Steps
import DocQuery.Proofs.Query.Pagination
import DocQuery.Proofs.Store.Stages

/-!
# Both ways to count pages give the same page

A page comes from one pipeline with the count beside the data, or from two pipelines.  All of them
start with the filter and the caller's stages, so they can be cut there (`Store.execute_append`): from
the same rows, or with the same fault, the count and the data are made by the same stages
(`Querier.batch_facet_eq_legacy`).  Counting the pages in another way changes nothing else of a query,
so a page does not depend on it, and it consists of what `find` and `count` give.
-/

namespace DocQuery

open Execution

/-- A pipeline in two parts starts its second part from the rows of the first one. -/
theorem Store.execute_append (store : Store) (name : String) (stages others : List Document) :
    store.execute name (stages ++ others) =
      match store.find? name with
      | none => .error (.collectionNotFound name)
      | some c =>
        runStages c.textIndex (c.docs.map Row.ofDocument) stages >>= fun rows =>
          (runStages c.textIndex rows others).map (List.map Row.doc) := by
  rw [execute]
  cases store.find? name with
  | none => rfl
  | some c =>
    simp only [runStages_append]
    cases runStages c.textIndex (c.docs.map Row.ofDocument) stages <;> rfl

/-! ### The document that holds a page -/

namespace Facet

theorem rows_documents (found : List Row) :
    rows (found.map fun row => .document row.doc) = .ok (found.map Row.doc) := by
  induction found with
  | nil => rfl
  | cons row rest ih =>
    rw [List.map_cons, rows, ih]
    rfl

theorem total_documents (counted : List Row) (data : String × Value) :
    total [(totalField, documentsOf counted), data] =
      .ok (countedTotal (counted.map Row.doc).head?) := by
  cases counted <;> rfl

/-- What a facet stage writes can be read. -/
theorem parts_documents (counted found : List Row) :
    parts [(totalField, documentsOf counted), (dataField, documentsOf found)] =
      .ok (countedTotal (counted.map Row.doc).head?, found.map Row.doc) := by
  have hdata : data [(totalField, documentsOf counted), (dataField, documentsOf found)] =
      rows (found.map fun row => .document row.doc) := rfl
  rw [parts, total_documents, hdata, rows_documents]
  rfl

end Facet

/-! ### Batches -/

namespace Querier

section Strategies

variable (catalog : Catalog) (name : String) (store : Store) (preStages : List Document)

section Batches

variable (query : Query) (resolved : ResolvedIds)

/-- The count and the data of a page are the same in one pipeline and in two. -/
theorem batch_facet_eq_legacy :
    (store.querier catalog name).batch query .facet resolved preStages =
      (store.querier catalog name).batch query .legacy resolved preStages := by
  let parts := query.parts resolved preStages
  have hrun : ∀ mode stages, parts.assemble mode = parts.baseStages ++ stages →
      (store.querier catalog name).run query mode resolved preStages =
        store.execute query.collection
          (parts.baseStages.map Stage.toDocument ++ stages.map Stage.toDocument) := by
    intro mode stages h
    rw [← List.map_append, ← h]
    rfl
  simp only [batch, hrun .page _ rfl, hrun .count _ rfl, hrun .find _ rfl, Store.execute_append]
  cases store.find? query.collection with
  | none => rfl
  | some c =>
    dsimp only
    cases runStages c.textIndex (c.docs.map Row.ofDocument) (parts.baseStages.map Stage.toDocument) with
    | error e => rfl
    | ok rows =>
      rw [Outcome.ok_bind, Outcome.ok_bind, Outcome.ok_bind, List.map_singleton,
        runStages_singleton, runStage_facet]
      cases runStages c.textIndex rows (parts.countStages.map Stage.toDocument) with
      | error e => rfl
      | ok counted =>
        cases runStages c.textIndex rows (parts.dataStages.map Stage.toDocument) with
        | error e => rfl
        | ok found => exact Facet.parts_documents counted found

theorem batch_eq_legacy (p : Pagination) :
    (store.querier catalog name).batch query p resolved preStages =
      (store.querier catalog name).batch query .legacy resolved preStages := by
  cases p with
  | facet => exact batch_facet_eq_legacy catalog name store preStages query resolved
  | legacy => rfl

end Batches

/-- A request means the same query, however pages are counted. -/
theorem compile_paginated (strategy : String → Pagination) (request : Request) :
    (store.querier (catalog.paginated strategy) name).compile request =
      (store.querier catalog name).compile request := by
  rw [compile, compile, Compiler.new_paginated]
  cases Compiler.new catalog name with
  | error e => rfl
  | ok c => exact c.compile_paginated strategy request

theorem page_paginated (strategy : String → Pagination) (request : Request) :
    (store.querier (catalog.paginated strategy) name).page request preStages =
      (store.querier catalog name).page request preStages := by
  have hprepare : (store.querier (catalog.paginated strategy) name).prepare request =
      (store.querier catalog name).prepare request := by
    rw [prepare, prepare, compile_paginated]
  have hbatch : ∀ query resolved, (store.querier (catalog.paginated strategy) name).batch query
        (store.querier (catalog.paginated strategy) name).pagination resolved preStages =
      (store.querier catalog name).batch query (store.querier catalog name).pagination resolved
        preStages := by
    intro query resolved
    rw [batch_eq_legacy (catalog.paginated strategy), batch_eq_legacy catalog]
    rfl
  rw [page, page, hprepare]
  simp only [hbatch]
  rfl

/-- A page consists of the documents that are found and of their number. -/
theorem page_eq_ok_iff_find_count {request : Request} {page : Page} :
    ((store.querier catalog name).page request preStages).run.run = .ok page ↔
      ∃ query, (store.querier catalog name).compile request = .ok query ∧
        ((store.querier catalog name).find request preStages).run.run = .ok page.docs ∧
        ((store.querier catalog name).count request preStages).run.run = .ok page.total ∧
        page = Page.ofQuery query page.total page.docs := by
  simp only [page_eq_ok_iff, batch_eq_legacy, batch_legacy_eq_ok_iff, find_eq_ok_iff,
    count_eq_ok_iff]
  constructor
  · rintro ⟨query, resolved, hprepare, _, found, ⟨counted, hcounted, rfl, hfound⟩, docs, hfinish,
      rfl⟩
    have hquery := (prepare_eq_ok_iff.1 hprepare).1
    refine ⟨query, hquery, ?_, ?_, rfl⟩
    · exact ⟨query, resolved, hprepare, found, hfound, hfinish⟩
    · exact ⟨query, resolved, hprepare, counted, hcounted, rfl⟩
  · rintro ⟨query, hquery, ⟨found, ids, hprepare, docs, hfound, hfinish⟩,
      ⟨again, others, hagain, counted, hcounted, htotal⟩, hpage⟩
    -- both answers come from the same query and the same ids
    obtain ⟨rfl, rfl⟩ := Prod.mk.inj (Except.ok.inj (hprepare.symm.trans hagain))
    obtain rfl : query = found := Except.ok.inj (hquery.symm.trans (prepare_eq_ok_iff.1 hprepare).1)
    exact ⟨query, ids, hprepare, _, docs, ⟨counted, hcounted, htotal, hfound⟩, _, hfinish,
      hpage.symm⟩

end Strategies

/-- **Both ways to count pages give the same page**, or the same fault, in every store and whatever
the caller's stages are.  The documents of the page are those that `find` gives, the total is what
`count` gives, and there is a page whenever both of these answer. -/
theorem pages_agree (catalog : Catalog) (name : String) (store : Store) (request : Request)
    (preStages : List Document) :
    (∀ strategy other : String → Pagination,
      (store.querier (catalog.paginated strategy) name).page request preStages =
        (store.querier (catalog.paginated other) name).page request preStages) ∧
    ∀ page, ((store.querier catalog name).page request preStages).run.run = .ok page ↔
      ∃ query, (store.querier catalog name).compile request = .ok query ∧
        ((store.querier catalog name).find request preStages).run.run = .ok page.docs ∧
        ((store.querier catalog name).count request preStages).run.run = .ok page.total ∧
        page = Page.ofQuery query page.total page.docs := by
  constructor
  · intro strategy other
    rw [page_paginated, page_paginated]
  · intro page
    exact page_eq_ok_iff_find_count catalog name store preStages

end Querier

end DocQuery
