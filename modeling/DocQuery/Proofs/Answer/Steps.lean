import DocQuery.Answer.Basic
import DocQuery.Proofs.Outcome

/-!
# The steps of an answer

When a request is answered without a fault, each of its steps was done without one: it was compiled,
the ids of its joined clauses were fetched, its pipeline ran, and its joins were fetched.
-/

namespace DocQuery

/-- Answers requests to one collection of a store. -/
abbrev Store.querier (store : Store) (catalog : Catalog) (name : String) : Querier Id :=
  ⟨catalog, name, store.source⟩

namespace Querier

variable {q : Querier Id} {request : Request} {preStages : List Document}

theorem prepare_eq_ok_iff {query : Query} {resolved : ResolvedIds} :
    (q.prepare request).run.run = .ok (query, resolved) ↔
      q.compile request = .ok query ∧
        (resolveJoined q.source query.filter.joins).run.run = .ok resolved := by
  have hcompile : ∀ query : Query,
      (ExceptT.mk (pure ((q.compile request).mapError Failure.query)) : ExceptT Failure Id Query).run.run =
        .ok query ↔ q.compile request = .ok query := fun _ => Outcome.mapError_eq_ok_iff
  simp only [prepare, Outcome.run_bind_eq_ok_iff, hcompile, Outcome.run_adapt_eq_ok_iff]
  constructor
  · rintro ⟨query, hquery, resolved, hresolved, h⟩
    cases h
    exact ⟨hquery, hresolved⟩
  · rintro ⟨hquery, hresolved⟩
    exact ⟨query, hquery, resolved, hresolved, rfl⟩

theorem find_eq_ok_iff {docs : List Document} :
    (q.find request preStages).run.run = .ok docs ↔
      ∃ query resolved, (q.prepare request).run.run = .ok (query, resolved) ∧
        ∃ found, (q.run query .find resolved preStages).run.run = .ok found ∧
          (q.finish query found).run.run = .ok docs := by
  simp only [find, Outcome.run_bind_eq_ok_iff, Outcome.run_adapt_eq_ok_iff, Prod.exists]

/-- The last two steps: the joins are fetched, and what they give is sorted. -/
theorem finish_eq_ok_iff {query : Query} {found docs : List Document} :
    (q.finish query found).run.run = .ok docs ↔
      ∃ joined, (Join.resolve q.source query.joins found).run.run = .ok joined ∧
        sortDocuments query.order.afterJoins joined = .ok docs := by
  rw [finish, Outcome.run_bind_eq_ok_iff]
  rfl

theorem count_eq_ok_iff {n : Nat} :
    (q.count request preStages).run.run = .ok n ↔
      ∃ query resolved, (q.prepare request).run.run = .ok (query, resolved) ∧
        ∃ counted, (q.run query .count resolved preStages).run.run = .ok counted ∧
          countedTotal counted.head? = n := by
  simp only [count, Outcome.run_bind_eq_ok_iff, Outcome.run_adapt_eq_ok_iff, Prod.exists,
    Outcome.run_pure_eq_ok_iff]

theorem page_eq_ok_iff {page : Page} :
    (q.page request preStages).run.run = .ok page ↔
      ∃ query resolved, (q.prepare request).run.run = .ok (query, resolved) ∧
        ∃ total found, (q.batch query q.pagination resolved preStages).run.run = .ok (total, found) ∧
          ∃ docs, (q.finish query found).run.run = .ok docs ∧ Page.ofQuery query total docs = page := by
  simp only [Querier.page, Outcome.run_bind_eq_ok_iff, Outcome.run_adapt_eq_ok_iff, Prod.exists,
    Outcome.run_pure_eq_ok_iff]

/-- With two pipelines, the count and the documents of a batch are what these pipelines give. -/
theorem batch_legacy_eq_ok_iff {query : Query} {resolved : ResolvedIds} {total : Nat}
    {found : List Document} :
    (q.batch query .legacy resolved preStages).run.run = .ok (total, found) ↔
      ∃ counted, (q.run query .count resolved preStages).run.run = .ok counted ∧
        countedTotal counted.head? = total ∧
        (q.run query .find resolved preStages).run.run = .ok found := by
  simp only [batch, Outcome.run_bind_eq_ok_iff, Outcome.run_pure_eq_ok_iff, Prod.mk.injEq]
  constructor
  · rintro ⟨counted, hcounted, _, hfound, htotal, rfl⟩
    exact ⟨counted, hcounted, htotal, hfound⟩
  · rintro ⟨counted, hcounted, htotal, hfound⟩
    exact ⟨counted, hcounted, found, hfound, htotal, rfl⟩

end Querier

end DocQuery
