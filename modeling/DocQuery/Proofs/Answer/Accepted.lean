import DocQuery.Proofs.Answer.Exact
import DocQuery.Proofs.Query.ForeignKeys
import DocQuery.Proofs.Store.Sorting

/-!
# Stages that are never refused

Behind the match stage of a query no stage is refused, whatever the rows are: the body of a sort names
directions that the store knows (`Execution.runStages_sortStages_eq`), the body of a projection only takes
fields or only leaves fields out, and every number is a count (`Compiler.Means.exists_runStage_eq_ok`).  So
the stages behind the match stage have a result wherever their sort has one
(`Compiler.exists_runStages_dataStages_eq`).  Nor is the fetch of a join refused, if its collection is there
(`Join.exists_fetch_eq_ok`).
-/

namespace DocQuery

open Execution Selection

/-! ### Sorting -/

/-- The sort stage sorts by the keys of an order; without keys there is none. -/
theorem Execution.runStages_sortStages_eq {parts : PipelineParts} {keys : SortKeys}
    (hsort : parts.sort = some keys.toDocument) (hkeys : Keyed.Distinct keys) (textIndex : List String)
    (rows : List Row) :
    runStages textIndex rows (parts.sortStages.map Stage.toDocument) = Row.sort keys rows := by
  have hwritten := SortKeys.writtenAs_toDocument hkeys
  rw [PipelineParts.sortStages, hsort]
  cases hbody : keys.toDocument with
  | nil =>
    rw [hbody] at hwritten
    obtain rfl := List.forall₂_nil_left_iff.1 hwritten
    exact (stableSort_const_eq _ rows).symm
  | cons field rest =>
    rw [← hbody, Option.filter_some, if_pos (by rw [hbody]; rfl)]
    refine (runStages_singleton textIndex rows _).trans ?_
    rw [runStage_sort, sortKeys_eq_ok_iff.2 hwritten, Outcome.ok_bind]

/-! ### Projecting -/

namespace Projection

variable {tree : Selection} {scored : Bool} {body : Document} {m : Int32}

/-- A body whose markers are all the same does not mix two kinds of flags. -/
theorem Asks.exists_isInclusion_eq_ok (h : Asks tree scored body) (hwritten : Fits (written m) tree)
    (hnested : Nested tree) : ∃ inclusion, isInclusion body = .ok inclusion := by
  have htakes : (flagsOfFields true body).takes = true → (markerFlags m).takes = true := by
    rw [(flagsOfFields_iff body).1, h.exists_mem_iff hwritten hnested
      (P := fun flags => flags.takes = true) (by simp [flagsOf_relevanceFlag])]
    exact And.left
  have hleaves : (flagsOfFields true body).leavesOut = true → (markerFlags m).leavesOut = true := by
    rw [(flagsOfFields_iff body).2, h.exists_mem_iff hwritten hnested
      (P := fun flags => flags.leavesOut = true) (by simp [flagsOf_relevanceFlag])]
    exact And.left
  rw [isInclusion, if_neg]
  · exact ⟨_, rfl⟩
  · rw [Bool.and_eq_true]
    rintro ⟨ht, hl⟩
    have hmarker := hleaves hl
    rw [markerFlags, Bool.not_eq_true', ← Bool.not_eq_true] at hmarker
    exact hmarker (htakes ht)

theorem Asks.exists_project_eq_ok (h : Asks tree scored body) (hwritten : Fits (written m) tree)
    (hnested : Nested tree) (relevance : Nat) (doc : Document) :
    ∃ projected, project relevance doc body = .ok projected := by
  obtain ⟨inclusion, hinclusion⟩ := h.exists_isInclusion_eq_ok hwritten hnested
  rw [project, h.expand_eq hwritten hnested, hinclusion]
  exact ⟨_, rfl⟩

end Projection

/-- Without a selection the body leaves out the protected fields. -/
theorem Compiler.asks_of_projectDocument_none {c : Compiler} {joins : List Join} {scored : Bool}
    {body : Document} (h : c.projectDocument none joins scored = some body) :
    Projection.Asks c.protectedFields.canonical scored body := by
  have hfields : Projection.Asks c.protectedFields.canonical false (c.projectFields none joins) :=
    Projection.asks_toDocument (nested_canonical _)
  cases scored with
  | false =>
    simp only [projectDocument, Bool.false_eq_true, if_false, Option.ite_none_left_eq_some,
      Option.some.injEq] at h
    exact h.2 ▸ hfields
  | true =>
    simp only [projectDocument, if_true, Option.ite_none_left_eq_some, Option.some.injEq] at h
    exact h.2 ▸ hfields.score

namespace Compiler.Means

variable {c : Compiler} {request : Request} {query : Query}

/-- The body of the projection stage asks for the fields that are selected, or leaves out the protected
ones. -/
theorem exists_asks (h : c.Means request query)
    (hprotected : c.collection.protectedSelection = .ok c.protectedFields) {body : Document}
    (hbody : query.project = some body) : ∃ (m : Int32) (tree : Selection),
      Projection.Asks tree query.textSearch body ∧ Fits (written m) tree ∧ Nested tree := by
  cases hselection : query.selection with
  | some selection =>
    obtain ⟨asked, hasked, hasks⟩ := h.exists_body_of_some hselection
    obtain rfl : asked = body := Option.some.inj (hasked.symm.trans hbody)
    have hselects := h.selects hselection
    exact ⟨included, _, hasks, fits_taken hselects.written hselects.planned, nested_taken _ _⟩
  | none =>
    refine ⟨excluded, c.protectedFields.canonical, ?_,
      fits_canonical (Collection.fits_protectedSelection hprotected), nested_canonical _⟩
    rw [h.project, hselection] at hbody
    exact asks_of_projectDocument_none hbody

/-! ### All stages behind the match stage -/

/-- No stage behind the match stage but the sort can be without a result, whatever rows it is given. -/
theorem exists_runStage_eq_ok (h : c.Means request query)
    (hprotected : c.collection.protectedSelection = .ok c.protectedFields) (resolved : ResolvedIds)
    {stage : Stage} (hstage : stage ∈ (query.parts resolved []).dataStages)
    (hsort : ∀ body, stage ≠ .sort body) (textIndex : List String) (rows : List Row) :
    ∃ out, runStage textIndex rows stage.toDocument = .ok out := by
  simp only [PipelineParts.dataStages, List.mem_append, List.mem_cons, List.not_mem_nil, or_false,
    Query.parts, PipelineParts.sortStages, PipelineParts.unwindStages, List.mem_map,
    Option.mem_toList] at hstage
  rcases hstage with ((⟨body, -, rfl⟩ | ⟨path, -, rfl⟩) | rfl | rfl) | ⟨body, hbody, rfl⟩
  · exact absurd rfl (hsort body)
  · exact ⟨_, runStage_unwind textIndex rows path true⟩
  · exact ⟨_, runStage_skip textIndex rows _⟩
  · exact ⟨_, runStage_limit textIndex rows _⟩
  · obtain ⟨m, tree, hasks, hwritten, hnested⟩ := h.exists_asks hprotected hbody
    rw [runStage_project]
    refine Outcome.exists_mapM_eq_ok_iff.2 fun row _ => ?_
    obtain ⟨projected, hprojected⟩ :=
      hasks.exists_project_eq_ok hwritten hnested row.relevance row.doc
    exact ⟨⟨projected, row.relevance⟩, by rw [runProject, hprojected]; rfl⟩

end Compiler.Means

theorem Execution.exists_runStages_eq_ok {textIndex : List String} {stages : List Document}
    (h : ∀ stage ∈ stages, ∀ rows, ∃ out, runStage textIndex rows stage = .ok out)
    (rows : List Row) : ∃ out, runStages textIndex rows stages = .ok out := by
  induction stages generalizing rows with
  | nil => exact ⟨rows, rfl⟩
  | cons stage rest ih =>
    rw [List.forall_mem_cons] at h
    obtain ⟨next, hnext⟩ := h.1 rows
    rw [runStages_cons, hnext]
    exact ih h.2 next

namespace Compiler

variable {c : Compiler} {request : Request} {query : Query}

/-- The stages behind the match stage sort by the keys of the query, and what they make of the sorted rows is
always there. -/
theorem exists_runStages_dataStages_eq (h : c.compile request = .ok query)
    (hprotected : c.collection.protectedSelection = .ok c.protectedFields) (resolved : ResolvedIds)
    (textIndex : List String) : ∃ shape : List Row → List Row, ∀ rows,
      runStages textIndex rows ((query.parts resolved []).dataStages.map Stage.toDocument) =
        (Row.sort query.order.here rows).map shape := by
  let parts := query.parts resolved []
  let others := parts.unwindStages ++ [.skip parts.skip, .limit parts.limit] ++
    parts.project.toList.map Stage.project
  have hstages : parts.dataStages = parts.sortStages ++ others := by
    simp only [PipelineParts.dataStages, others, List.append_assoc]
  have hothers : ∀ rows, ∃ out, runStages textIndex rows (others.map Stage.toDocument) = .ok out := by
    refine exists_runStages_eq_ok (List.forall_mem_map.2 fun stage hstage rows => ?_)
    refine (means_of_compile h).exists_runStage_eq_ok hprotected resolved
      (hstages ▸ List.mem_append_right _ hstage) ?_ textIndex rows
    rintro body rfl
    simp [others, PipelineParts.unwindStages] at hstage
  choose shape hshape using hothers
  refine ⟨shape, fun rows => ?_⟩
  rw [hstages, List.map_append, runStages_append,
    runStages_sortStages_eq rfl (distinct_here_of_compile h) textIndex rows]
  cases Row.sort query.order.here rows with
  | error e => rfl
  | ok sorted => exact hshape sorted

/-- Whatever rows a stage behind the match stage is given, it has a result, unless it is the sort and the keys
of the query are no order on the rows. -/
theorem runStage_of_compile (h : c.compile request = .ok query)
    (hprotected : c.collection.protectedSelection = .ok c.protectedFields) (resolved : ResolvedIds)
    {stage : Stage} (hstage : stage ∈ (query.parts resolved []).dataStages)
    (textIndex : List String) (rows : List Row) :
    (∃ out, runStage textIndex rows stage.toDocument = .ok out) ∨
      stage = .sort query.order.here.toDocument ∧ ¬Sortable (Row.compare query.order.here) rows ∧
        runStage textIndex rows stage.toDocument = .error .unordered := by
  by_cases hsort : ∃ body, stage = .sort body
  · obtain ⟨body, rfl⟩ := hsort
    obtain rfl : query.order.here.toDocument = body := by
      have hbody : body ∈ (query.parts resolved []).sort := by
        simp only [PipelineParts.dataStages, PipelineParts.sortStages, PipelineParts.unwindStages,
          List.mem_append, List.mem_map, Option.mem_toList, List.mem_cons, List.not_mem_nil, or_false,
          reduceCtorEq, and_false, exists_false, Stage.sort.injEq, exists_eq_right] at hstage
        exact (Option.filter_eq_some_iff.1 hstage).1
      exact Option.some.inj hbody
    have hwritten := SortKeys.writtenAs_toDocument (distinct_here_of_compile h)
    by_cases hsortable : Sortable (Row.compare query.order.here) rows
    · exact .inl ⟨_, (runStage_sort_eq_ok_iff textIndex rows).2 ⟨_, hwritten, hsortable, rfl⟩⟩
    · exact .inr ⟨rfl, hsortable, (runStage_sort_eq_unordered_iff textIndex rows).2
        ⟨_, sortKeys_eq_ok_iff.2 hwritten, hsortable⟩⟩
  · push Not at hsort
    exact .inl ((means_of_compile h).exists_runStage_eq_ok hprotected resolved hstage hsort textIndex rows)

end Compiler

/-! ### The documents of joins -/

/-- The fetch of a join is answered if its collection is there, whatever ids are asked for. -/
theorem Join.exists_fetch_eq_ok {store : Store} {join : Join} {target : StoredCollection}
    (htarget : store.find? join.collection = some target)
    (hwritten : Fits (written included) join.selection) (ids : List Value) :
    ∃ docs, (store.source.fetch join.collection (some ids) join.projection none).run.run =
      .ok docs := by
  obtain ⟨docs, hdocs⟩ := Outcome.exists_mapM_eq_ok_iff.2
    fun doc (_ : doc ∈ target.docs.filter fun doc => ids.any (Test.equalsAny doc "_id")) =>
      (exists_project_eq_ok hwritten doc).imp fun _ => And.left
  exact ⟨docs, (Store.fetch_ids htarget ids (projection_ne_nil join)).trans hdocs⟩

end DocQuery
