import DocQuery.Proofs.Store.Inserting
import DocQuery.Proofs.Store.Matching
import DocQuery.Proofs.Store.Projection
import DocQuery.Proofs.Store.Stages
import DocQuery.Query.Compile
import DocQuery.StableSort

/-!
# What comes out of the pipeline of a page

In the documents of a store no key stands twice, and the stages of a pipeline keep it
(`wellKeyed_runStages`), those of the caller included.  The projection comes last, so the documents of a
page are those of the pipeline without it, projected one by one (`Store.execute_find_eq_ok`).
-/

namespace DocQuery

open Execution

/-- Rows of documents in which no key stands twice. -/
def Row.AllWellKeyed (rows : List Row) : Prop := ∀ row ∈ rows, row.doc.WellKeyed

namespace Execution

variable {textIndex : List String} {rows out : List Row}

theorem wellKeyed_runMatch {body : Document} (h : Row.AllWellKeyed rows)
    (hrun : runMatch textIndex rows body = .ok out) : Row.AllWellKeyed out := by
  obtain ⟨test, -, -, rfl⟩ := runMatch_eq_ok_iff.1 hrun
  intro row hrow
  obtain ⟨original, horiginal, rfl⟩ := List.mem_map.1 hrow
  rw [rated_doc]
  exact h original (List.mem_of_mem_filter horiginal)

theorem wellKeyed_unwindRow {path : Path} {keepEmpty : Bool} {row new : Row} (h : row.doc.WellKeyed)
    (hnew : new ∈ unwindRow path keepEmpty row) : new.doc.WellKeyed := by
  have hempty : ∀ new : Row, new ∈ (if keepEmpty then
      [(⟨Path.remove row.doc path, row.relevance⟩ : Row)] else []) → new.doc.WellKeyed := by
    intro new hnew
    split at hnew
    · rw [List.mem_singleton.1 hnew]
      exact Path.wellKeyed_remove path h
    · cases hnew
  unfold unwindRow at hnew
  dsimp only at hnew
  split at hnew
  · exact hempty new hnew
  · exact hempty new hnew
  · exact hempty new hnew
  · next items _ hget =>
    obtain ⟨item, hitem, rfl⟩ := List.mem_map.1 hnew
    have hitems := Value.wellKeyed_array_iff.1 (Path.wellKeyed_get h hget)
    exact Path.wellKeyed_set path h (hitems item hitem)
  · rw [List.mem_singleton.1 hnew]
    exact h

theorem wellKeyed_setFields {doc body : Document} (hdoc : doc.WellKeyed)
    (hbody : ∀ field ∈ body, field.2.WellKeyed) : (setFields doc body).WellKeyed := by
  refine List.foldlRecOn body _ hdoc fun doc hdoc field hfield => ?_
  obtain ⟨key, value⟩ := field
  have hvalue : value.WellKeyed := hbody _ hfield
  dsimp only
  split
  · split
    · split
      · next found hfound => exact Path.wellKeyed_set _ hdoc (Path.wellKeyed_get hdoc hfound)
      · exact hdoc
    · exact Path.wellKeyed_set _ hdoc trivial
  · exact Path.wellKeyed_set _ hdoc hvalue

theorem wellKeyed_runProject {body : Document} (h : Row.AllWellKeyed rows)
    (hrun : rows.mapM (runProject body) = .ok out) : Row.AllWellKeyed out := by
  intro row hrow
  obtain ⟨original, horiginal, hproject⟩ :=
    Outcome.exists_of_forall₂ (Outcome.mapM_eq_ok_iff.1 hrun) hrow
  obtain ⟨doc, hdoc, rfl⟩ := Outcome.map_eq_ok_iff.1 hproject
  exact Projection.wellKeyed_project (h original horiginal) hdoc

theorem wellKeyed_runCount {body : Value} (hrun : runCount rows body = .ok out) :
    Row.AllWellKeyed out := by
  unfold runCount at hrun
  split at hrun
  · split at hrun
    · obtain rfl := Except.ok.inj hrun
      exact List.forall_mem_nil _
    · obtain rfl := Except.ok.inj hrun
      exact List.forall_mem_singleton.2 (Document.wellKeyed_nil.put _ trivial)
  · cases hrun

/-- The stages that set fields. -/
def SetsFields (name : String) : Prop := name = "$addFields" ∨ name = "$set"

theorem wellKeyed_runWithDocument {name : String} {body : Document} (h : Row.AllWellKeyed rows)
    (hbody : SetsFields name → body.WellKeyed)
    (hrun : runWithDocument textIndex rows name body = .ok out) : Row.AllWellKeyed out := by
  have hset : body.WellKeyed →
      Row.AllWellKeyed (rows.map fun row => ⟨setFields row.doc body, row.relevance⟩) := fun hbody =>
    List.forall_mem_map.2 fun row hrow =>
      wellKeyed_setFields (h row hrow) (Document.wellKeyed_iff.1 hbody).2
  unfold runWithDocument at hrun
  split at hrun
  · exact wellKeyed_runMatch h hrun
  · obtain ⟨keys, -, hsort⟩ := Outcome.bind_eq_ok_iff.1 hrun
    exact fun row hrow => h row ((stableSort_perm hsort).mem_iff.1 hrow)
  · exact wellKeyed_runProject h hrun
  · obtain rfl := Except.ok.inj hrun
    exact hset (hbody (.inl rfl))
  · obtain rfl := Except.ok.inj hrun
    exact hset (hbody (.inr rfl))
  · cases hrun

theorem wellKeyed_runUnwind {body : Value} (h : Row.AllWellKeyed rows)
    (hrun : runUnwind rows body = .ok out) : Row.AllWellKeyed out := by
  obtain ⟨⟨written, keepEmpty⟩, -, hrun⟩ := Outcome.bind_eq_ok_iff.1 hrun
  dsimp only at hrun
  split at hrun
  · obtain rfl := Except.ok.inj hrun
    intro row hrow
    obtain ⟨original, horiginal, hrow⟩ := List.mem_flatMap.1 hrow
    exact wellKeyed_unwindRow (h original horiginal) hrow
  · cases hrun

/-- Every stage apart from facets keeps keys distinct; one that sets fields, if they are so in its body. -/
theorem wellKeyed_runSimple {name : String} {body : Value} (h : Row.AllWellKeyed rows)
    (hbody : SetsFields name → body.WellKeyed)
    (hrun : runSimple textIndex rows name body = .ok out) : Row.AllWellKeyed out := by
  unfold runSimple runWithCount at hrun
  split at hrun
  · split at hrun
    · obtain rfl := Except.ok.inj hrun
      exact fun row hrow => h row (List.mem_of_mem_drop hrow)
    · cases hrun
  · split at hrun
    · obtain rfl := Except.ok.inj hrun
      exact fun row hrow => h row (List.mem_of_mem_take hrow)
    · cases hrun
  · exact wellKeyed_runUnwind h hrun
  · exact wellKeyed_runCount hrun
  · split at hrun
    · split at hrun
      · exact wellKeyed_runWithDocument h hbody hrun
      · cases hrun
    · cases hrun

/-- Whatever stage a caller brings, it keeps keys distinct if they are so in the stage. -/
theorem wellKeyed_runStage_caller {stage : Document} (h : Row.AllWellKeyed rows)
    (hstage : stage.WellKeyed) (hrun : runStage textIndex rows stage = .ok out) :
    Row.AllWellKeyed out := by
  -- the induction follows the stages into the pipelines of facets
  refine runStage.induct
    (fun rows stage => Row.AllWellKeyed rows → (∀ field ∈ stage, field.2.WellKeyed) →
      ∀ out, runStage textIndex rows stage = .ok out → Row.AllWellKeyed out)
    (fun rows name body => Row.AllWellKeyed rows → body.WellKeyed →
      ∀ out, runBody textIndex rows name body = .ok out → Row.AllWellKeyed out)
    (fun rows done fields => Row.AllWellKeyed rows → done.WellKeyed →
      (∀ field ∈ fields, field.2.WellKeyed) →
      ∀ doc, runFacets textIndex rows done fields = .ok doc → doc.WellKeyed)
    (fun rows stages => Row.AllWellKeyed rows → (∀ stage ∈ stages, stage.WellKeyed) →
      ∀ out, runItems textIndex rows stages = .ok out → Row.AllWellKeyed out)
    ?facets ?document ?other ?stage ?shape ?noFacet ?facet ?badFacet ?noArray ?noStage ?stages ?badStage
    rows stage h (Document.wellKeyed_iff.1 hstage).2 out hrun
  case facets =>
    intro rows fields ih h hbody out hrun
    rw [runBody, if_pos rfl] at hrun
    obtain ⟨doc, hdoc, rfl⟩ := Outcome.map_eq_ok_iff.1 hrun
    have hfields := (Document.wellKeyed_iff.1 hbody).2
    exact List.forall_mem_singleton.2 (ih h Document.wellKeyed_nil hfields doc hdoc)
  case document =>
    intro rows name fields hname h hbody out hrun
    rw [runBody, if_neg hname] at hrun
    exact wellKeyed_runSimple h (fun _ => hbody) hrun
  case other =>
    intro body rows name hbody h hkeys out hrun
    rw [runBody.eq_2 _ _ _ _ hbody] at hrun
    exact wellKeyed_runSimple h (fun _ => hkeys) hrun
  case stage =>
    intro rows name body ih h hstage
    exact ih h (hstage _ List.mem_cons_self)
  case shape =>
    intro stage rows hshape h hstage out hrun
    rw [runStage.eq_2 _ _ _ hshape] at hrun
    cases hrun
  case noFacet =>
    intro rows done h hdone hfields doc hrun
    obtain rfl := Except.ok.inj hrun
    exact hdone
  case facet =>
    intro rows done name stages rest hall ihStages ihRest h hdone hfields doc hrun
    rw [List.forall_mem_cons] at hfields
    rw [runFacets, if_pos hall] at hrun
    obtain ⟨result, hresult, hrun⟩ := Outcome.bind_eq_ok_iff.1 hrun
    have hrows := ihStages h (Value.wellKeyed_array_iff.1 hfields.1) result hresult
    refine ihRest result h (hdone.put name ?_) hfields.2 doc hrun
    exact Value.wellKeyed_array_iff.2 (List.forall_mem_map.2 hrows)
  case badFacet =>
    intro rows done name stages rest hall h hdone hfields doc hrun
    rw [runFacets, if_neg hall] at hrun
    cases hrun
  case noArray =>
    intro rows done name value rest hvalue h hdone hfields doc hrun
    rw [runFacets.eq_3 _ _ _ _ _ _ hvalue] at hrun
    cases hrun
  case noStage =>
    intro rows h hstages out hrun
    obtain rfl := Except.ok.inj hrun
    exact h
  case stages =>
    intro rows stage rest ihStage ihRest h hstages out hrun
    rw [List.forall_mem_cons] at hstages
    rw [runItems] at hrun
    obtain ⟨next, hnext, hrun⟩ := Outcome.bind_eq_ok_iff.1 hrun
    have hfields := (Document.wellKeyed_iff.1 hstages.1).2
    exact ihRest next (ihStage h hfields next hnext) hstages.2 out hrun
  case badStage =>
    intro rows value rest hvalue h hstages out hrun
    rw [runItems.eq_3 _ _ _ _ hvalue] at hrun
    cases hrun

/-- The stages of a query apart from the caller's own, the projection and the counts. -/
inductive Plain : Stage → Prop
  | filter (body : Document) : Plain (.filter body)
  | sort (body : Document) : Plain (.sort body)
  | unwind (path : String) (keepEmpty : Bool) : Plain (.unwind path keepEmpty)
  | skip (n : UInt64) : Plain (.skip n)
  | limit (n : UInt64) : Plain (.limit n)

/-- These stages set no fields. -/
theorem Plain.exists_runSimple {stage : Stage} (h : Plain stage) : ∃ name body, ¬SetsFields name ∧
    ∀ textIndex rows, runStage textIndex rows stage.toDocument = runSimple textIndex rows name body := by
  have hsimple : ∀ name body, ¬SetsFields name → name ≠ "$facet" → ∃ name' body',
      ¬SetsFields name' ∧ ∀ textIndex rows,
        runStage textIndex rows [(name, body)] = runSimple textIndex rows name' body' := by
    intro name body hset hfacet
    refine ⟨name, body, hset, fun textIndex rows => ?_⟩
    cases body <;> first | rfl | exact if_neg hfacet
  cases h <;> exact hsimple _ _ (by simp [SetsFields]) (by decide)

/-- The stages that keep keys distinct, the caller's among them if their own keys are so. -/
inductive KeepsKeys : Stage → Prop
  | plain {stage : Stage} (h : Plain stage) : KeepsKeys stage
  | caller {stage : Document} (h : stage.WellKeyed) : KeepsKeys (.raw stage)

theorem wellKeyed_runStage {stage : Stage} (hstage : KeepsKeys stage) (h : Row.AllWellKeyed rows)
    (hrun : runStage textIndex rows stage.toDocument = .ok out) : Row.AllWellKeyed out := by
  cases hstage with
  | plain hplain =>
    obtain ⟨name, body, hset, hsimple⟩ := hplain.exists_runSimple
    rw [hsimple] at hrun
    exact wellKeyed_runSimple h (fun hname => absurd hname hset) hrun
  | caller hstage => exact wellKeyed_runStage_caller h hstage hrun

/-- A run of these stages keeps keys distinct, step by step. -/
theorem wellKeyed_runStages {stages : List Stage} (hstages : ∀ stage ∈ stages, KeepsKeys stage)
    (h : Row.AllWellKeyed rows)
    (hrun : runStages textIndex rows (stages.map Stage.toDocument) = .ok out) :
    Row.AllWellKeyed out := by
  induction stages generalizing rows with
  | nil =>
    obtain rfl := Except.ok.inj hrun
    exact h
  | cons stage rest ih =>
    rw [List.forall_mem_cons] at hstages
    rw [List.map_cons, runStages_cons] at hrun
    obtain ⟨next, hnext, hrun⟩ := Outcome.bind_eq_ok_iff.1 hrun
    exact ih hstages.2 (wellKeyed_runStage hstages.1 h hnext) hrun

end Execution

/-! ### The pipeline of a page -/

namespace Query

/-- The query without its projection. -/
def bare (query : Query) : Query := { query with project := none }

variable (query : Query) (resolved : ResolvedIds)

theorem pipeline_find (preStages : List Document) : query.pipeline .find resolved preStages =
    query.bare.pipeline .find resolved preStages ++ query.project.toList.map Stage.project := by
  simp [pipeline, parts, bare, skip, PipelineParts.assemble, PipelineParts.dataStages,
    PipelineParts.baseStages, PipelineParts.sortStages, PipelineParts.unwindStages]

theorem mem_bare_pipeline {preStages : List Document} {stage : Stage}
    (h : stage ∈ query.bare.pipeline .find resolved preStages) :
    Execution.Plain stage ∨ ∃ doc ∈ preStages, stage = .raw doc := by
  simp only [pipeline, parts, bare, PipelineParts.assemble, PipelineParts.dataStages,
    PipelineParts.baseStages, PipelineParts.sortStages, PipelineParts.unwindStages, List.mem_append,
    List.mem_map, Option.mem_toList, Option.toList_none, List.map_nil,
    List.not_mem_nil, or_false, List.mem_cons] at h
  rcases h with (⟨body, -, rfl⟩ | ⟨doc, hdoc, rfl⟩) | (⟨body, -, rfl⟩ | ⟨path, -, rfl⟩) | rfl | rfl
  · exact .inl (.filter body)
  · exact .inr ⟨doc, hdoc, rfl⟩
  · exact .inl (.sort body)
  · exact .inl (.unwind path true)
  · exact .inl (.skip _)
  · exact .inl (.limit _)

theorem plain_bare_pipeline : ∀ stage ∈ query.bare.pipeline .find resolved [], Execution.Plain stage :=
  fun _ hstage => (query.mem_bare_pipeline resolved hstage).resolve_right (by simp)

end Query

/-- The documents of a page are those of the pipeline without the projection, projected one by one. -/
theorem Store.execute_find_eq_ok {store : Store} {query : Query} {resolved : ResolvedIds}
    {preStages found : List Document} (hstore : store.WellKeyed)
    (hpre : ∀ stage ∈ preStages, stage.WellKeyed)
    (h : store.execute query.collection
      ((query.pipeline .find resolved preStages).map Stage.toDocument) = .ok found) :
    ∃ rows : List Row, Row.AllWellKeyed rows ∧
      store.execute query.collection
        ((query.bare.pipeline .find resolved preStages).map Stage.toDocument) =
        .ok (rows.map Row.doc) ∧
      match query.project with
      | none => found = rows.map Row.doc
      | some body => List.Forall₂
          (fun row doc => Projection.project row.relevance row.doc body = .ok doc) rows found := by
  rw [Store.execute] at h
  rw [Store.execute]
  cases hc : store.find? query.collection with
  | none => simp [hc] at h
  | some c =>
    simp only [hc] at h ⊢
    obtain ⟨out, hout, rfl⟩ := Outcome.map_eq_ok_iff.1 h
    rw [query.pipeline_find, List.map_append, runStages_append] at hout
    obtain ⟨rows, hrows, hout⟩ := Outcome.bind_eq_ok_iff.1 hout
    have hwell : Row.AllWellKeyed (c.docs.map Row.ofDocument) := by
      intro row hrow
      obtain ⟨doc, hdoc, rfl⟩ := List.mem_map.1 hrow
      exact hstore _ c hc doc hdoc
    have hstages : ∀ stage ∈ query.bare.pipeline .find resolved preStages, KeepsKeys stage := by
      intro stage hstage
      rcases query.mem_bare_pipeline resolved hstage with hplain | ⟨doc, hdoc, rfl⟩
      · exact .plain hplain
      · exact .caller (hpre doc hdoc)
    refine ⟨rows, wellKeyed_runStages hstages hwell hrows, ?_, ?_⟩
    · rw [hrows]
      rfl
    · cases hproject : query.project with
      | none =>
        rw [hproject] at hout
        obtain rfl := Except.ok.inj hout
        rfl
      | some body =>
        rw [hproject] at hout
        have hmap : rows.mapM (runProject body) = .ok out := by
          rw [← runStage_project, ← runStages_singleton]
          exact hout
        have hforall := Outcome.mapM_eq_ok_iff.1 hmap
        show List.Forall₂ _ rows (out.map Row.doc)
        rw [List.forall₂_map_right_iff]
        refine hforall.imp ?_
        intro row new hnew
        obtain ⟨doc, hdoc, rfl⟩ := Outcome.map_eq_ok_iff.1 hnew
        exact hdoc

end DocQuery
