import DocQuery.Proofs.Answer.Accepted
import DocQuery.Proofs.Filter.SemiJoin

/-!
# When an answer is left open

An answer is sorted twice: the pipeline sorts the rows that pass the filter, and at the end the joined
documents are sorted by the keys behind references.  Where the keys are no order on what they sort, and it is
more than is always sorted, the answer is left open.  `Compiler.LeftOpen` says so of a request, and no other
step leaves anything open (`Querier.find_eq_unordered_iff`).
-/

namespace DocQuery

open Execution

/-! ### Fetches -/

section Fetches

variable (store : Store)

theorem Settled.run_bind {α β : Type} {x : ExceptT StoreError Id α} {f : α → ExceptT StoreError Id β}
    (hx : Settled x.run.run) (hf : ∀ a, Settled (f a).run.run) : Settled (x >>= f).run.run := by
  intro h
  rcases Outcome.run_bind_eq_error_iff.1 h with h | ⟨a, -, h⟩
  · exact hx h
  · exact hf a h

/-- A fetch matches and projects. -/
theorem Store.settled_fetch (name : String) (ids : Option (List Value)) (projection : Document)
    (filter : Option Document) : Settled (store.source.fetch name ids projection filter).run.run := by
  show Settled (store.execute name (Source.fetchStages ids projection filter))
  unfold Store.execute
  split
  · exact nofun
  · next base _ =>
    refine Settled.map (settled_runStages base.textIndex _ fun stage hstage => ?_) _
    rcases List.mem_cons.1 hstage with rfl | hstage
    · exact ⟨_, _, by decide, by decide, rfl⟩
    · split at hstage
      · cases hstage
      · exact ⟨_, _, by decide, by decide, List.mem_singleton.1 hstage⟩

theorem settled_resolveJoined (clauses : List JoinedClause) :
    Settled (resolveJoined store.source clauses).run.run := by
  induction clauses with
  | nil => exact .ok []
  | cons clause rest ih =>
    exact .run_bind (store.settled_fetch _ _ _ _) fun _ => .run_bind ih fun _ => .ok _

theorem Join.settled_resolve (joins : List Join) (docs : List Document) :
    Settled (Join.resolve store.source joins docs).run.run := by
  refine .run_bind ?_ fun _ => .ok _
  induction pending joins docs with
  | nil => exact .ok []
  | cons entry rest ih =>
    exact .run_bind (store.settled_fetch _ _ _ _) fun _ => .run_bind ih fun _ => .ok _

end Fetches

/-! ### The pipeline -/

section Pipeline

variable {store : Store} {c : Compiler} {request : Request} {query : Query} {base : StoredCollection}

/-- The pipeline of a query sorts the rows that pass the filter; what it makes of the sorted rows is always
there. -/
theorem Compiler.exists_execute_eq (h : c.compile request = .ok query)
    (hprotected : c.collection.protectedSelection = .ok c.protectedFields)
    (hbase : store.find? query.collection = some base) (resolved : ResolvedIds) :
    ∃ shape : List Row → List Document, store.execute query.collection
      ((query.pipeline .find resolved []).map Stage.toDocument) =
        (runMatch base.textIndex (base.docs.map Row.ofDocument) (query.filter.toDocument resolved) >>=
          Row.sort query.order.here).map shape := by
  obtain ⟨shape, hshape⟩ := exists_runStages_dataStages_eq h hprotected resolved base.textIndex
  have hpipeline : (query.pipeline .find resolved []).map Stage.toDocument =
      (query.parts resolved []).baseStages.map Stage.toDocument ++
        (query.parts resolved []).dataStages.map Stage.toDocument := List.map_append
  refine ⟨fun rows => (shape rows).map Row.doc, ?_⟩
  rw [Store.execute, hbase, hpipeline]
  simp only [runStages_append, runStages_baseStages_nil]
  cases runMatch base.textIndex (base.docs.map Row.ofDocument) (query.filter.toDocument resolved) with
  | error e => rfl
  | ok passed =>
    rw [Outcome.ok_bind, Outcome.ok_bind, hshape]
    cases Row.sort query.order.here passed <;> rfl

theorem Compiler.execute_eq_unordered_iff (h : c.compile request = .ok query)
    (hprotected : c.collection.protectedSelection = .ok c.protectedFields) (resolved : ResolvedIds) :
    store.execute query.collection ((query.pipeline .find resolved []).map Stage.toDocument) =
        .error .unordered ↔
      ∃ base rows, store.find? query.collection = some base ∧
        runMatch base.textIndex (base.docs.map Row.ofDocument) (query.filter.toDocument resolved) =
          .ok rows ∧ ¬Sortable (Row.compare query.order.here) rows := by
  cases hbase : store.find? query.collection with
  | none => simp [Store.execute, hbase]
  | some base =>
    obtain ⟨shape, hshape⟩ := exists_execute_eq h hprotected hbase resolved
    rw [hshape, Outcome.map_eq_error_iff, (settled_runMatch _ _ _).bind_eq_unordered_iff]
    simp only [Row.sort, stableSort_eq_error_iff, and_true]
    constructor
    · rintro ⟨rows, hrows, hopen⟩
      exact ⟨base, rows, rfl, hrows, hopen⟩
    · rintro ⟨_, rows, ⟨⟩, hrows, hopen⟩
      exact ⟨rows, hrows, hopen⟩

/-- The documents of the page before they are joined; the caller's stages run behind the filter. -/
def Query.Finds (store : Store) (query : Query) (preStages docs : List Document) : Prop :=
  ∃ resolved, (resolveJoined store.source query.filter.joins).run.run = .ok resolved ∧
    store.execute query.collection
      ((query.pipeline .find resolved preStages).map Stage.toDocument) = .ok docs

/-- The rows that pass the filter of a query. -/
def Query.Passes (store : Store) (query : Query) (rows : List Row) : Prop :=
  ∃ resolved base, (resolveJoined store.source query.filter.joins).run.run = .ok resolved ∧
    store.find? query.collection = some base ∧
    runMatch base.textIndex (base.docs.map Row.ofDocument) (query.filter.toDocument resolved) = .ok rows

end Pipeline

/-! ### Whole answers -/

/-- Why the answer to a request is left open: one of its two sorts is. -/
inductive Compiler.LeftOpen (c : Compiler) (store : Store) (request : Request) : Prop
  /-- the keys of the pipeline are no order on the rows that pass the filter -/
  | rows {query : Query} {rows : List Row} (hquery : c.compile request = .ok query)
    (hrows : query.Passes store rows) (hopen : ¬Sortable (Row.compare query.order.here) rows)
  /-- the keys behind references are no order on the joined documents of the page -/
  | joined {query : Query} {docs joined : List Document} (hquery : c.compile request = .ok query)
    (hdocs : query.Finds store [] docs)
    (hjoined : (Join.resolve store.source query.joins docs).run.run = .ok joined)
    (hopen : ¬Sortable (query.order.afterJoins.compareValues Document.valueAt) joined)

/-- An answer is settled if both sorts of the query are, whatever they sort. -/
theorem Compiler.not_leftOpen {c : Compiler} {store : Store} {request : Request} {query : Query}
    (h : c.compile request = .ok query) (hhere : ∀ rows, Sortable (Row.compare query.order.here) rows)
    (hafter : ∀ docs, Sortable (query.order.afterJoins.compareValues Document.valueAt) docs) :
    ¬c.LeftOpen store request := by
  rintro (@⟨other, rows, hother, -, hopen⟩ | @⟨other, docs, joined, hother, -, -, hopen⟩)
  all_goals obtain rfl : query = other := Except.ok.inj (h.symm.trans hother)
  · exact hopen (hhere rows)
  · exact hopen (hafter joined)

section Answer

variable {store : Store} {catalog : Catalog} {name : String} {c : Compiler} {request : Request}

theorem Querier.prepare_ne_unordered : ((store.querier catalog name).prepare request).run.run ≠
    .error (.store .unordered) := by
  intro h
  rcases Outcome.run_bind_eq_error_iff.1 h with h | ⟨query, -, h⟩
  · have hcompile : ((store.querier catalog name).compile request).mapError Failure.query =
        .error (.store .unordered) := h
    cases hquery : (store.querier catalog name).compile request <;>
      simp [hquery, Except.mapError] at hcompile
  · rcases Outcome.run_bind_eq_error_iff.1 h with h | ⟨resolved, -, h⟩
    · obtain ⟨fault, hfault, he⟩ := Outcome.run_adapt_eq_error_iff.1 h
      obtain rfl := Failure.store.inj he
      exact settled_resolveJoined store query.filter.joins hfault
    · cases h

theorem Querier.finish_eq_unordered_iff {query : Query} {found : List Document} :
    ((store.querier catalog name).finish query found).run.run = .error .unordered ↔
      ∃ joined, (Join.resolve store.source query.joins found).run.run = .ok joined ∧
        ¬Sortable (query.order.afterJoins.compareValues Document.valueAt) joined := by
  rw [finish, Outcome.run_bind_eq_error_iff, or_iff_right (Join.settled_resolve store query.joins found)]
  refine exists_congr fun joined => and_congr_right fun _ => ?_
  show sortDocuments query.order.afterJoins joined = .error .unordered ↔ _
  rw [sortDocuments_eq, stableSort_eq_error_iff, and_iff_left rfl]

/-- The answer to a request is left open if its steps are done up to one of its two sorts, and that one is
left open. -/
theorem Querier.find_eq_unordered_iff (hc : Compiler.new catalog name = .ok c) :
    ((store.querier catalog name).find request []).run.run = .error (.store .unordered) ↔
      c.LeftOpen store request := by
  have hprotected := (Compiler.new_eq_ok_iff.1 hc).2.2.2
  have hprepare : ∀ query resolved, ((store.querier catalog name).prepare request).run.run =
      .ok (query, resolved) ↔ c.compile request = .ok query ∧
        (resolveJoined store.source query.filter.joins).run.run = .ok resolved := by
    intro query resolved
    rw [prepare_eq_ok_iff, Querier.compile, hc, Outcome.ok_bind]
  rw [find, Outcome.run_bind_eq_error_iff, or_iff_right prepare_ne_unordered]
  simp only [Prod.exists, hprepare, Outcome.run_adapt_eq_error_iff, Outcome.run_bind_eq_error_iff,
    Failure.store.injEq, exists_eq_right, finish_eq_unordered_iff]
  constructor
  · rintro ⟨query, resolved, ⟨hquery, hids⟩, hrun | ⟨found, hrun, joined, hjoined, hopen⟩⟩
    · obtain ⟨base, rows, hbase, hrows, hopen⟩ :=
        (Compiler.execute_eq_unordered_iff hquery hprotected resolved).1 hrun
      exact .rows hquery ⟨resolved, base, hids, hbase, hrows⟩ hopen
    · exact .joined hquery ⟨resolved, hids, hrun⟩ hjoined hopen
  · rintro (@⟨query, rows, hquery, ⟨resolved, base, hids, hbase, hrows⟩, hopen⟩ |
      @⟨query, found, joined, hquery, ⟨resolved, hids, hrun⟩, hjoined, hopen⟩)
    · exact ⟨query, resolved, ⟨hquery, hids⟩, .inl
        ((Compiler.execute_eq_unordered_iff hquery hprotected resolved).2 ⟨base, rows, hbase, hrows, hopen⟩)⟩
    · exact ⟨query, resolved, ⟨hquery, hids⟩, .inr ⟨found, hrun, joined, hjoined, hopen⟩⟩

end Answer

end DocQuery
