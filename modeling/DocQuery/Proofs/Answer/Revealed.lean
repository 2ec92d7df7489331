import DocQuery.Proofs.Answer.Accepted
import DocQuery.Proofs.Store.Exclusion
import Mathlib.Data.List.Perm.Subperm

/-!
# What a request for all fields shows

A request for all fields shows each document of its page as it is stored, apart from the protected fields
(`Querier.revealed_of_find`): nothing is found at a protected field or behind it, and everything at a path
that is apart from all of them.  There is one exception: if all that is protected lies behind `_id`, then
only `_id` is shown, with the protected fields in it.
-/

namespace DocQuery

open Execution Selection

/-! ### The documents of a page are stored ones -/

namespace Execution

variable {textIndex : List String} {rows out : List Row}

theorem subperm_of_runMatch {body : Document} (h : runMatch textIndex rows body = .ok out) :
    (out.map Row.doc).Subperm (rows.map Row.doc) := by
  obtain ⟨test, -, -, rfl⟩ := runMatch_eq_ok_iff.1 h
  have hdoc : Row.doc ∘ rated textIndex test = Row.doc := funext (rated_doc textIndex test)
  rw [List.map_map, hdoc]
  exact (List.filter_sublist.map _).subperm

/-- Without unwinding, a stage in front of the projection only orders documents and leaves out some. -/
theorem subperm_of_runStage {stage : Stage} (hplain : Plain stage)
    (hunwind : ∀ path keepEmpty, stage ≠ .unwind path keepEmpty)
    (h : runStage textIndex rows stage.toDocument = .ok out) :
    (out.map Row.doc).Subperm (rows.map Row.doc) := by
  cases hplain with
  | filter body => exact subperm_of_runMatch (runStage_filter textIndex rows body ▸ h)
  | sort body =>
    rw [runStage_sort] at h
    obtain ⟨keys, -, hsort⟩ := Outcome.bind_eq_ok_iff.1 h
    exact ((stableSort_perm hsort).map _).subperm
  | unwind path keepEmpty => exact absurd rfl (hunwind path keepEmpty)
  | skip n =>
    rw [runStage_skip] at h
    obtain rfl := Except.ok.inj h
    exact ((List.drop_sublist _ _).map _).subperm
  | limit n =>
    rw [runStage_limit] at h
    obtain rfl := Except.ok.inj h
    exact ((List.take_sublist _ _).map _).subperm

theorem subperm_of_runStages {stages : List Stage} (hplain : ∀ stage ∈ stages, Plain stage)
    (hunwind : ∀ path keepEmpty, Stage.unwind path keepEmpty ∉ stages)
    (h : runStages textIndex rows (stages.map Stage.toDocument) = .ok out) :
    (out.map Row.doc).Subperm (rows.map Row.doc) := by
  induction stages generalizing rows with
  | nil =>
    obtain rfl := Except.ok.inj h
    exact List.Subperm.refl _
  | cons stage rest ih =>
    rw [List.forall_mem_cons] at hplain
    rw [List.map_cons, runStages_cons] at h
    obtain ⟨next, hnext, h⟩ := Outcome.bind_eq_ok_iff.1 h
    have hstage := subperm_of_runStage hplain.1
      (fun path keepEmpty e => hunwind path keepEmpty (e ▸ List.mem_cons_self)) hnext
    exact (ih hplain.2 (fun path keepEmpty hmem =>
      hunwind path keepEmpty (List.mem_cons_of_mem _ hmem)) h).trans hstage

end Execution

/-- Without unwinding, the documents of a page are stored ones before they are projected. -/
theorem Store.subperm_of_bare {store : Store} {query : Query} {resolved : ResolvedIds}
    {docs : List Document} (hunwind : query.unwind = none)
    (h : store.execute query.collection
      ((query.bare.pipeline .find resolved []).map Stage.toDocument) = .ok docs) :
    ∃ base, store.find? query.collection = some base ∧ docs.Subperm base.docs := by
  rw [Store.execute] at h
  cases hbase : store.find? query.collection with
  | none => simp [hbase] at h
  | some base =>
    simp only [hbase] at h
    obtain ⟨rows, hrows, rfl⟩ := Outcome.map_eq_ok_iff.1 h
    have hnone : ∀ path keepEmpty,
        Stage.unwind path keepEmpty ∉ query.bare.pipeline .find resolved [] := by
      intro path keepEmpty hmem
      simp [Query.pipeline, Query.parts, Query.bare, PipelineParts.assemble,
        PipelineParts.dataStages, PipelineParts.baseStages, PipelineParts.sortStages,
        PipelineParts.unwindStages, hunwind] at hmem
    have hsub := subperm_of_runStages (query.plain_bare_pipeline resolved) hnone hrows
    have hdocs : (base.docs.map Row.ofDocument).map Row.doc = base.docs := by
      rw [List.map_map]
      exact List.map_id'' (fun _ => rfl) base.docs
    exact ⟨base, rfl, hdocs ▸ hsub⟩

/-! ### What is shown of a document -/

/-- A document shows another one but for what a selection hides: nothing is found at a hidden field or
behind it, and everything at a path that is apart from all hidden fields. -/
def Document.Reveals (hidden : Selection) (origin doc : Document) : Prop :=
  ∀ path, (Covers hidden path → Path.candidates doc path = []) ∧
    ((∀ leaf ∈ leaves hidden, Path.Apart leaf path) →
      Path.candidates doc path = Path.candidates origin path)

/-- The document that has the `_id` of another one and nothing else. -/
def Document.idAlone (origin : Document) : Document :=
  (origin.get? "_id").toList.map fun id => ("_id", id)

theorem Path.BehindId.of_longer {path longer : Path} (h : BehindId path) (hlonger : path <+: longer) :
    BehindId longer := by
  refine ⟨h.1.trans hlonger, ?_⟩
  rintro rfl
  exact h.2 ((List.IsPrefix.eq_of_length h.1 (Nat.le_antisymm h.1.length_le hlonger.length_le)).symm)

/-- The canonical selection names the same fields. -/
theorem Selection.onlyBehindId_canonical_iff {tree : Selection} :
    tree.canonical.OnlyBehindId ↔ tree.OnlyBehindId := by
  constructor
  · rintro ⟨⟨leaf, hleaf⟩, hall⟩
    refine ⟨⟨leaf, mem_leaves_canonical hleaf⟩, fun other hother => ?_⟩
    obtain ⟨shorter, hshorter, hbegin⟩ := covers_canonical (covers_of_mem hother)
    exact (hall shorter hshorter).of_longer hbegin
  · rintro ⟨⟨leaf, hleaf⟩, hall⟩
    obtain ⟨shorter, hshorter, -⟩ := covers_canonical (covers_of_mem hleaf)
    exact ⟨⟨shorter, hshorter⟩, fun other hother => hall other (mem_leaves_canonical hother)⟩

section Project

variable {relevance : Nat} {hidden : Selection} {body doc projected : Document}

theorem reveals_of_project (h : Projection.Asks hidden.canonical false body)
    (hwritten : Fits (written excluded) hidden) (hdoc : doc.WellKeyed)
    (hproject : Projection.project relevance doc body = .ok projected)
    (hbehind : ¬hidden.OnlyBehindId) : Document.Reveals hidden doc projected := by
  have hfits := fits_canonical hwritten
  have hnested := nested_canonical hidden
  rw [Projection.project, h.expand_eq hfits hnested, h.isInclusion_of_not_onlyBehindId hfits hnested
    (onlyBehindId_canonical_iff.not.2 hbehind)] at hproject
  obtain rfl : Projection.restFields relevance doc body = projected := Except.ok.inj hproject
  intro path
  constructor
  · intro hcovers
    obtain ⟨leaf, hleaf, rest, rfl⟩ := covers_canonical hcovers
    have hnone : Path.candidates (Projection.restFields relevance doc body) leaf = [] :=
      Projection.candidates_restFields h hfits hnested hleaf (by simp) hdoc
    exact Path.candidates_append_eq_nil hnone (ne_nil_of_mem_leaves hleaf) rest
  · intro hapart
    exact Projection.candidates_restFields_of_apart h hfits hnested hdoc fun leaf hleaf =>
      hapart leaf (mem_leaves_canonical hleaf)

theorem eq_idAlone_of_project (h : Projection.Asks hidden.canonical false body)
    (hwritten : Fits (written excluded) hidden)
    (hproject : Projection.project relevance doc body = .ok projected)
    (hbehind : hidden.OnlyBehindId) : projected = doc.idAlone := by
  have hfits := fits_canonical hwritten
  have hnested := nested_canonical hidden
  have hcanonical := onlyBehindId_canonical_iff.2 hbehind
  rw [Projection.project, h.expand_eq hfits hnested,
    h.isInclusion_of_onlyBehindId hfits hnested hcanonical] at hproject
  obtain rfl : Projection.take relevance doc body = projected := Except.ok.inj hproject
  exact h.take_of_onlyBehindId hfits hnested hcanonical

end Project

/-! ### Requests for all fields -/

/-- **A request for all fields.**  Without a text search and without unwinding, each document of a page
stems from one stored document.  It shows all of it but the protected fields, unless all of these lie
behind `_id`; then it is its `_id` alone, as a whole. -/
theorem Querier.revealed_of_find {store : Store} {catalog : Catalog} {name : String}
    {collection : Collection} {hidden : Selection} {request : Request} {query : Query}
    {docs : List Document} (hstore : store.WellKeyed)
    (hcollection : catalog.find? name = some collection)
    (hhidden : collection.protectedSelection = .ok hidden)
    (hquery : (store.querier catalog name).compile request = .ok query)
    (hall : query.selection = none) (hsearch : query.textSearch = false)
    (hunwind : query.unwind = none)
    (hdocs : ((store.querier catalog name).find request []).run.run = .ok docs) :
    ∃ base origins, store.find? name = some base ∧ origins.Subperm base.docs ∧
      (¬hidden.OnlyBehindId → List.Forall₂ (Document.Reveals hidden) origins docs) ∧
      (hidden.OnlyBehindId → docs = origins.map Document.idAlone) := by
  obtain ⟨c, hc, hmeans⟩ := compile_eq_ok hquery
  obtain rfl := Compiler.new_eq_ok hcollection hhidden hc
  obtain ⟨resolved, rows, found, joined, hanswers⟩ := answers_of_find hstore hquery hdocs
  obtain ⟨base, hbase, hsub⟩ := Store.subperm_of_bare hunwind hanswers.bare
  have hwritten : Fits (written excluded) hidden := Collection.fits_protectedSelection hhidden
  let Shows (origin doc : Document) : Prop :=
    (¬hidden.OnlyBehindId → Document.Reveals hidden origin doc) ∧
      (hidden.OnlyBehindId → doc = origin.idAlone)
  -- the projection, row by row
  have hfound : List.Forall₂ Shows (rows.map Row.doc) found := by
    have hproject := hmeans.project
    rw [hall, hmeans.joinsOfNone hall, hsearch] at hproject
    cases hbody : query.project with
    | none =>
      have hprojected := hanswers.projected
      rw [hbody] at hprojected
      obtain rfl : found = rows.map Row.doc := hprojected
      have hnone : ∀ leaf, leaf ∉ leaves hidden := by
        intro leaf hleaf
        obtain ⟨shorter, hshorter, -⟩ := covers_canonical (covers_of_mem hleaf)
        obtain ⟨body, hsome, -⟩ := Compiler.exists_body_of_none
          ⟨catalog, name, collection, hidden⟩ false hshorter
        rw [← hproject, hbody] at hsome
        cases hsome
      exact List.forall₂_same.2 fun doc _ =>
        ⟨fun _ path => ⟨fun ⟨leaf, hleaf, _⟩ => absurd hleaf (hnone leaf), fun _ => rfl⟩,
          fun ⟨⟨leaf, hleaf⟩, _⟩ => absurd hleaf (hnone leaf)⟩
    | some body =>
      have hasks : Projection.Asks hidden.canonical false body :=
        Compiler.asks_of_projectDocument_none (hproject.symm.trans hbody)
      rw [List.forall₂_map_left_iff]
      refine (hanswers.forall₂_row hbody).imp fun row doc hrow => ⟨fun hnot => ?_, fun honly => ?_⟩
      · exact reveals_of_project hasks hwritten hrow.1 hrow.2 hnot
      · exact eq_idAlone_of_project hasks hwritten hrow.2 honly
  -- nothing is joined, and the order after the joins only moves documents
  have hperm : docs.Perm found := by
    have hjoins := hanswers.joins
    rw [hmeans.joinsOfNone hall] at hjoins
    obtain rfl : found = joined := Except.ok.inj hjoins
    exact hanswers.sorted
  obtain ⟨origins, horigins, hmoved⟩ := List.perm_comp_forall₂ hperm hfound.flip
  have hshown : List.Forall₂ Shows origins docs := horigins.flip
  rw [hmeans.collection] at hbase
  refine ⟨base, origins, hbase, hmoved.subperm.trans hsub, fun hnot => ?_, fun honly => ?_⟩
  · exact hshown.imp fun _ _ h => h.1 hnot
  · have halone : List.Forall₂ Eq (origins.map Document.idAlone) docs :=
      List.forall₂_map_left_iff.2 (hshown.imp fun _ _ h => (h.2 honly).symm)
    rw [List.forall₂_eq_eq_eq] at halone
    exact halone.symm

/-! ### Notes -/

namespace Notes

/-- Notes of which all fields are shown if a request names none. -/
def collection (fields : String) : Collection :=
  ⟨[], [], { Options.standard with
    protectedFields := some fields, defaultFields := none, defaultSort := none }⟩

def catalog (fields : String) : Catalog := [("notes", collection fields)]

def note : Document :=
  [("_id", .document [("x", .int32 1), ("y", .int32 2)]), ("title", .string "a"), ("draft", .string "b")]

def store (fields : String) : Store :=
  ((Store.forCatalog ⟨0⟩ (catalog fields)).insertMany "notes" [note]).2

/-- What the empty request means. -/
def query (project : Document) : Query where
  collection := "notes"
  filter := .empty
  order := ⟨[], []⟩
  selection := none
  project := some project
  joins := []
  unwind := none
  page := 1
  limit := 20
  textSearch := false

theorem wellKeyed_store (fields : String) : (store fields).WellKeyed := by
  refine Store.wellKeyed_insertMany (Store.wellKeyed_forCatalog _ _) ?_ "notes"
  rw [List.forall_mem_singleton, Document.wellKeyed_iff]
  refine ⟨by simp [note, Keyed.Distinct, Keyed.keys], ?_⟩
  simp [note, Value.WellKeyed, Value.WellKeyedFields, Keyed.Distinct, Keyed.keys]

section Compile

variable {fields : String} {hidden : Selection} {project : Document}
  (hhidden : (collection fields).protectedSelection = .ok hidden)
  (hproject : hidden.canonical.toDocument = project) (hne : project ≠ [])
include hhidden hproject hne

theorem compile_eq : ((store fields).querier (catalog fields) "notes").compile [] =
    .ok (query project) := by
  have hnew : Compiler.new (catalog fields) "notes" =
      .ok ⟨catalog fields, "notes", collection fields, hidden⟩ :=
    Compiler.new_eq_ok_iff.2 ⟨rfl, rfl, rfl, hhidden⟩
  have hbody : Compiler.projectDocument ⟨catalog fields, "notes", collection fields, hidden⟩ none []
      false = some project := by
    rw [Compiler.projectDocument]
    simp [Compiler.projectFields, hproject, hne]
  rw [Querier.compile, hnew, Outcome.ok_bind, query, ← hbody]
  rfl

theorem find_eq {doc : Document} (hrun : ((store fields).querier (catalog fields) "notes").run
      (query project) .find [] [] = .ok [doc]) :
    (((store fields).querier (catalog fields) "notes").find [] []).run.run = .ok [doc] := by
  have hprepare : (((store fields).querier (catalog fields) "notes").prepare []).run.run =
      .ok (query project, []) :=
    Querier.prepare_eq_ok_iff.2 ⟨compile_eq hhidden hproject hne, rfl⟩
  exact Querier.find_eq_ok_iff.2 ⟨query project, [], hprepare, [doc], hrun, rfl⟩

end Compile

theorem protectedSelection_eq {fields key : String} (htokens : tokens fields = .ok [.key key]) :
    (collection fields).protectedSelection = .ok [(key, .marker excluded)] := by
  have hread : Selection.read excluded fields = .ok [(key, .marker excluded)] := by
    rw [Selection.read, htokens]
    rfl
  show readOrError excluded fields = _
  rw [readOrError, hread]
  rfl

theorem draft_hidden : ∃ docs,
    (((store "draft").querier (catalog "draft") "notes").find [] []).run.run = .ok docs ∧
      docs.map Document.keys = [["_id", "title"]] ∧
      ∃ origins, List.Forall₂ (Document.Reveals [("draft", .marker excluded)]) origins docs := by
  have hhidden : (collection "draft").protectedSelection = .ok [("draft", .marker excluded)] :=
    protectedSelection_eq (by decide +kernel)
  have hproject : Selection.toDocument (canonical [("draft", .marker excluded)]) =
      [("draft", .int32 0)] := by rfl
  have hfind : (((store "draft").querier (catalog "draft") "notes").find [] []).run.run =
    .ok [[("_id", .document [("x", .int32 1), ("y", .int32 2)]), ("title", .string "a")]] :=
      find_eq hhidden hproject (by simp) rfl
  obtain ⟨base, origins, -, -, hreveals, -⟩ := Querier.revealed_of_find (wellKeyed_store "draft") rfl
    hhidden (compile_eq hhidden hproject (by simp)) rfl rfl rfl hfind
  refine ⟨_, hfind, rfl, origins, hreveals ?_⟩
  rintro ⟨-, hall⟩
  have hleaf : ["draft"] ∈ leaves [("draft", .marker excluded)] := by
    rw [leaves, Path.ofText_of_plain (by decide)]
    exact List.mem_cons_self
  exact absurd (hall _ hleaf).1 (by decide)

/-- With `_id.x` protected, a note is its `_id` alone, with the protected field in it. -/
theorem id_shown_alone :
    (catalog "_id.x").find? "notes" = some (collection "_id.x") ∧
      (collection "_id.x").protectedSelection = .ok [("_id.x", .marker excluded)] ∧
      ["_id", "x"] ∈ leaves [("_id.x", .marker excluded)] ∧
      ∃ doc, (((store "_id.x").querier (catalog "_id.x") "notes").find [] []).run.run = .ok [doc] ∧
        Path.candidates doc ["_id", "x"] = [.int32 1] ∧ Path.candidates doc ["title"] = [] ∧
          Path.candidates note ["title"] = [.string "a"] := by
  have hhidden : (collection "_id.x").protectedSelection = .ok [("_id.x", .marker excluded)] :=
    protectedSelection_eq (by decide +kernel)
  have hpath : Path.ofText "_id.x" = ["_id", "x"] := by decide +kernel
  have hcanonical : canonical [("_id.x", .marker excluded)] =
      [("_id", .group [("x", .marker excluded)])] := by
    rw [canonical, canonicalOnto, canonicalOnto, hpath]
    rfl
  have hproject : Selection.toDocument (canonical [("_id.x", .marker excluded)]) =
      [("_id", .document [("x", .int32 0)])] := by rw [hcanonical]; rfl
  refine ⟨rfl, hhidden, ?_, _, find_eq hhidden hproject (by simp) rfl, rfl, rfl, rfl⟩
  rw [leaves, hpath]
  exact List.mem_cons_self

end Notes

end DocQuery
