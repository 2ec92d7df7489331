import DocQuery.Proofs.Answer.Failures
import DocQuery.Proofs.Answer.Strategies
import DocQuery.Proofs.Query.Reordered

/-!
# The order of a request's pairs does not matter

Requests with the same pairs that count, in whatever order, get the same answers, or none of them gets one
(`Querier.answers_reordered`).  Their queries differ in the filter alone.  The ids that the store gives for
a joined clause do not depend on its slot (`Store.idsFor`), so with these ids written into them the two
filters have the same clauses in different orders, and their match stages give the same rows.
-/

namespace DocQuery

open Test Execution

section Store

variable {store : Store}

/-! ### The ids of joined clauses -/

/-- The ids that a store gives for a joined clause. -/
def Store.idsFor (store : Store) (clause : JoinedClause) : List Value :=
  match (store.source.fetch clause.collection none onlyId (some clause.condition)).run.run with
  | .ok docs => docs.filterMap fun doc => doc.get? "_id"
  | .error _ => []

theorem Store.slotFree_idsFor (store : Store) : Clause.SlotFree store.idsFor := fun _ => rfl

theorem filed_of_resolveJoined {clauses : List JoinedClause} {resolved : ResolvedIds}
    (h : (resolveJoined store.source clauses).run.run = .ok resolved) :
    List.Forall₂ (fun clause filed => filed.1 = clause.slot ∧ filed.2 = store.idsFor clause) clauses
      resolved := by
  induction clauses generalizing resolved with
  | nil =>
    obtain rfl := Except.ok.inj h
    exact .nil
  | cons clause rest ih =>
    obtain ⟨docs, hdocs, h⟩ := Outcome.run_bind_eq_ok_iff.1 h
    obtain ⟨others, hothers, h⟩ := Outcome.run_bind_eq_ok_iff.1 h
    obtain rfl := Except.ok.inj h
    refine .cons ⟨rfl, ?_⟩ (ih hothers)
    rw [Store.idsFor, hdocs]

/-- Each joined clause gets back the ids that the store gives for it. -/
theorem get_of_resolveJoined {filter : Filter} {resolved : ResolvedIds} (hslots : filter.Slotted)
    (h : (resolveJoined store.source filter.joins).run.run = .ok resolved) :
    ∀ joined ∈ filter.joinedClauses, resolved.get joined.slot = store.idsFor joined := by
  have hperm := filter.joins_perm
  have hnodup : (filter.joins.map JoinedClause.slot).Nodup :=
    (hperm.map JoinedClause.slot).nodup_iff.2 hslots.nodup
  intro joined hj
  exact resolved_get (P := fun clause ids => ids = store.idsFor clause) (filed_of_resolveJoined h)
    hnodup joined (hperm.mem_iff.2 hj)

/-! ### Both queries -/

variable {c : Compiler} {request other : Request}

/-- If the store accepts the joined clauses of one filter, it accepts those of the other one. -/
theorem accepted_reordered (h : c.collection.Reordered request other)
    (haccepted : ∀ clause ∈ (c.filterOf request).joins, clause.Accepted store) :
    ∀ clause ∈ (c.filterOf other).joins, clause.Accepted store := by
  intro clause hc
  have hmem : { clause with slot := 0 } ∈ (c.filterOf other).unslotted.joinedClauses := by
    rw [Filter.joinedClauses_unslotted]
    exact List.mem_map_of_mem ((c.filterOf other).joins_perm.mem_iff.1 hc)
  have hmem' := (Compiler.reorders_filterOf h).symm.mem_joinedClauses hmem
  rw [Filter.joinedClauses_unslotted] at hmem'
  obtain ⟨first, hfirst, heq⟩ := List.mem_map.1 hmem'
  obtain ⟨target, htarget, haccepts⟩ :=
    haccepted first ((c.filterOf request).joins_perm.mem_iff.2 hfirst)
  simp only [JoinedClause.mk.injEq, true_and] at heq
  obtain ⟨-, hcollection, hcondition⟩ := heq
  exact ⟨target, hcollection ▸ htarget, hcondition ▸ haccepts⟩

/-- The match stages of both queries give the same rows. -/
theorem runMatch_reordered (h : c.collection.Reordered request other) {resolved resolved' : ResolvedIds}
    (hresolved : (resolveJoined store.source (c.filterOf request).joins).run.run = .ok resolved)
    (hresolved' : (resolveJoined store.source (c.filterOf other).joins).run.run = .ok resolved')
    {textIndex : List String} {rows passed : List Row}
    (hpassed : runMatch textIndex rows ((c.filterOf request).toDocument resolved) = .ok passed) :
    runMatch textIndex rows ((c.filterOf other).toDocument resolved') = .ok passed := by
  have hget := get_of_resolveJoined (c.slotted_filterOf request) hresolved
  have hget' := get_of_resolveJoined (c.slotted_filterOf other) hresolved'
  have hreorders := (Compiler.reorders_filterOf h).settled store.idsFor
  rw [Filter.settled_unslotted store.slotFree_idsFor,
    Filter.settled_unslotted store.slotFree_idsFor] at hreorders
  rw [← Filter.toDocument_settled [] hget] at hpassed
  rw [← Filter.toDocument_settled [] hget']
  obtain ⟨text, htext⟩ := c.exists_searchesOnly h.distinct
  have honly : ∀ clause ∈ ((c.filterOf request).settled store.idsFor).all ++
      ((c.filterOf request).settled store.idsFor).any,
      Readable (clause.toDocument []) → Reads (SearchesOnly text) (clause.toDocument []) := by
    intro clause hc
    obtain ⟨first, hfirst, rfl⟩ := Filter.mem_settled_iff.1 hc
    rw [first.toDocument_settled [] fun joined hj =>
      hget joined (Clause.mem_joinsOf hfirst joined hj)]
    exact htext first hfirst resolved
  exact hreorders.runMatch honly hpassed

/-- The stages behind the filter and the caller's stages have nothing to do with the filter. -/
theorem exists_pipeline_eq (query : Query) (mode : Mode) (preStages : List Document) :
    ∃ rest : List Document, ∀ filter resolved,
      (Query.pipeline { query with filter := filter } mode resolved preStages).map Stage.toDocument =
        (Query.parts { query with filter := filter } resolved preStages).baseStages.map
          Stage.toDocument ++ rest := by
  let parts := query.parts [] preStages
  cases mode with
  | find => exact ⟨parts.dataStages.map Stage.toDocument, fun _ _ => List.map_append⟩
  | count => exact ⟨parts.countStages.map Stage.toDocument, fun _ _ => List.map_append⟩
  | page =>
    exact ⟨[Stage.toDocument (.facet parts.countStages parts.dataStages)],
      fun _ _ => List.map_append⟩

/-- Both queries run alike, whatever the caller's stages are. -/
theorem execute_reordered (h : c.collection.Reordered request other) {query : Query}
    (hfilter : query.filter = c.filterOf request) {resolved resolved' : ResolvedIds}
    (hresolved : (resolveJoined store.source (c.filterOf request).joins).run.run = .ok resolved)
    (hresolved' : (resolveJoined store.source (c.filterOf other).joins).run.run = .ok resolved')
    {mode : Mode} {preStages found : List Document}
    (hfound : store.execute query.collection
      ((query.pipeline mode resolved preStages).map Stage.toDocument) = .ok found) :
    store.execute query.collection ((Query.pipeline { query with filter := c.filterOf other } mode
      resolved' preStages).map Stage.toDocument) = .ok found := by
  obtain ⟨rest, hrest⟩ := exists_pipeline_eq query mode preStages
  rw [hrest query.filter, Store.execute_append] at hfound
  rw [hrest, Store.execute_append]
  cases hbase : store.find? query.collection with
  | none =>
    rw [hbase] at hfound
    cases hfound
  | some base =>
    rw [hbase] at hfound
    simp only [Outcome.bind_eq_ok_iff, runStages_baseStages, hfilter] at hfound ⊢
    obtain ⟨rows, ⟨passed, hpassed, hpre⟩, hlater⟩ := hfound
    exact ⟨rows, ⟨passed, runMatch_reordered h hresolved hresolved' hpassed, hpre⟩, hlater⟩

end Store

/-! ### The answers -/

namespace Querier

variable {store : Store} {catalog : Catalog} {name : String} {request other : Request}
  {preStages : List Document}

/-- What one request is prepared and run to, the other one is, too. -/
theorem run_reordered
    (h : ∀ collection, catalog.find? name = some collection → collection.Reordered request other)
    {query : Query} {resolved : ResolvedIds}
    (hprepare : ((store.querier catalog name).prepare request).run.run = .ok (query, resolved))
    {mode : Mode} {found : List Document}
    (hfound : ((store.querier catalog name).run query mode resolved preStages).run.run = .ok found) :
    ∃ filter resolved',
      ((store.querier catalog name).prepare other).run.run =
        .ok ({ query with filter := filter }, resolved') ∧
      ((store.querier catalog name).run { query with filter := filter } mode resolved'
        preStages).run.run = .ok found := by
  obtain ⟨hcompile, hresolved⟩ := prepare_eq_ok_iff.1 hprepare
  obtain ⟨c, hc, hquery⟩ := Outcome.bind_eq_ok_iff.1 hcompile
  obtain ⟨hcatalog, hname, hcollection, -⟩ := Compiler.new_eq_ok_iff.1 hc
  have hreordered := h c.collection hcollection
  have hfilter := (Compiler.means_of_compile hquery).filter
  rw [hfilter] at hresolved
  have haccepted := accepted_reordered hreordered
    (exists_resolveJoined_eq_ok_iff.1 ⟨resolved, hresolved⟩)
  obtain ⟨resolved', hresolved'⟩ := exists_resolveJoined_eq_ok_iff.2 haccepted
  refine ⟨c.filterOf other, resolved', prepare_eq_ok_iff.2 ⟨?_, hresolved'⟩, ?_⟩
  · rw [Querier.compile, hc, Outcome.ok_bind, Compiler.compile_reordered hreordered hquery]
  · exact execute_reordered hreordered hfilter hresolved hresolved' hfound

theorem find_reordered
    (h : ∀ collection, catalog.find? name = some collection → collection.Reordered request other)
    {docs : List Document}
    (hdocs : ((store.querier catalog name).find request preStages).run.run = .ok docs) :
    ((store.querier catalog name).find other preStages).run.run = .ok docs := by
  obtain ⟨query, resolved, hprepare, found, hfound, hfinish⟩ := find_eq_ok_iff.1 hdocs
  obtain ⟨filter, resolved', hprepare', hfound'⟩ := run_reordered h hprepare hfound
  exact find_eq_ok_iff.2 ⟨_, resolved', hprepare', found, hfound', hfinish⟩

theorem count_reordered
    (h : ∀ collection, catalog.find? name = some collection → collection.Reordered request other)
    {n : Nat} (hn : ((store.querier catalog name).count request preStages).run.run = .ok n) :
    ((store.querier catalog name).count other preStages).run.run = .ok n := by
  obtain ⟨query, resolved, hprepare, counted, hcounted, htotal⟩ := count_eq_ok_iff.1 hn
  obtain ⟨filter, resolved', hprepare', hcounted'⟩ := run_reordered h hprepare hcounted
  exact count_eq_ok_iff.2 ⟨_, resolved', hprepare', counted, hcounted', htotal⟩

/-- **The order of a request's pairs does not matter, and unknown keys do nothing.**  Two requests with
the same pairs whose keys are reserved, declared, `_id` or paths of more than one key get the same
documents in the same order, and the same count, or neither of them gets an answer: in every catalog and
store, and whatever the caller's stages are. -/
theorem answers_reordered (store : Store) (preStages : List Document)
    (hrequest : Keyed.Distinct request) (hother : Keyed.Distinct other)
    (hperm : ∀ collection, catalog.find? name = some collection →
      (request.filter fun pair => collection.counts pair.1).Perm
        (other.filter fun pair => collection.counts pair.1)) :
    ((store.querier catalog name).find request preStages).run.run.toOption =
        ((store.querier catalog name).find other preStages).run.run.toOption ∧
      ((store.querier catalog name).count request preStages).run.run.toOption =
        ((store.querier catalog name).count other preStages).run.run.toOption := by
  have h : ∀ collection, catalog.find? name = some collection →
      collection.Reordered request other :=
    fun collection hcollection => ⟨hrequest, hother, hperm collection hcollection⟩
  have hsymm : ∀ collection, catalog.find? name = some collection →
      collection.Reordered other request :=
    fun collection hcollection => (h collection hcollection).symm
  exact ⟨Outcome.toOption_eq_of_iff fun _ => ⟨find_reordered h, find_reordered hsymm⟩,
    Outcome.toOption_eq_of_iff fun _ => ⟨count_reordered h, count_reordered hsymm⟩⟩

end Querier

/-! ### Posts by their title -/

namespace PostsByTitle

def posts : Collection := ⟨[("title", ⟨.string, none, false⟩)], [], .standard⟩

def store : Store := ⟨[("posts", ⟨[[("_id", .int32 1), ("title", .string "Lean")]], []⟩)], ⟨0⟩, 0⟩

/-- The limit comes first or last, and nothing is known of `utm`. -/
theorem title_before_or_behind_limit :
    let querier := store.querier [("posts", posts)] "posts"
    let request : Request := [("title", "Lean"), ("utm", "feed"), ("$limit", "5")]
    let other : Request := [("$limit", "5"), ("title", "Lean")]
    (querier.find request []).run.run.toOption = (querier.find other []).run.run.toOption ∧
      (querier.count request []).run.run.toOption = (querier.count other []).run.run.toOption := by
  refine Querier.answers_reordered store [] ?_ ?_ fun collection hcollection => ?_
  · simp [Keyed.Distinct, Keyed.keys]
  · simp [Keyed.Distinct, Keyed.keys]
  · obtain rfl : posts = collection := Option.some.inj hcollection
    decide +kernel

end PostsByTitle

end DocQuery
