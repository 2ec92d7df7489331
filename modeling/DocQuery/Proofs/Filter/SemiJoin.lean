import DocQuery.Proofs.Answer.Steps
import DocQuery.Proofs.Filter.Acceptance
import DocQuery.Proofs.Filter.Slots
import DocQuery.Proofs.Query.Compiled
import DocQuery.Proofs.Store.Stages

/-!
# Clauses on joined fields are semi-joins

A clause on a joined field asks for a document in another collection that satisfies the condition of
the clause and whose `_id` is in the field (`JoinedClause.Holds`).  The query does not follow the
field: it fetches the ids of all these documents first and files them under the slot of the clause
(`resolveJoined_eq_ok`).  Since every clause has a slot of its own, each one gets its own ids back
(`resolved_get`), and so the match stage lets a document pass if and only if the Boolean combination
of the request holds with `JoinedClause.Holds` for its joined clauses.
-/

namespace DocQuery

open Test Execution

/-! ### What a clause asks for -/

namespace JoinedClause

/-- A document in the collection of the clause satisfies its condition and has its `_id` in the
field of the clause. -/
def Holds (store : Store) (doc : Document) (clause : JoinedClause) : Prop :=
  ∃ target, store.find? clause.collection = some target ∧
    ∃ other ∈ target.docs, target.Finds clause.condition other ∧
      ∃ id, other.get? "_id" = some id ∧ equalsAny doc clause.field id = true

/-- These are the ids of the documents in the collection of the clause that satisfy its condition. -/
def IdsAre (store : Store) (clause : JoinedClause) (ids : List Value) : Prop :=
  ∃ target, store.find? clause.collection = some target ∧
    ∀ id, id ∈ ids ↔
      ∃ other ∈ target.docs, target.Finds clause.condition other ∧ other.get? "_id" = some id

/-- The store has the collection of the clause, and accepts its condition there. -/
def Accepted (store : Store) (clause : JoinedClause) : Prop :=
  ∃ target, store.find? clause.collection = some target ∧ target.Accepts clause.condition

end JoinedClause

/-! ### Fetching the ids -/

theorem runProject_onlyId (row : Row) : runProject onlyId row =
    .ok ⟨(row.doc.get? "_id").toList.map fun id => ("_id", id), row.relevance⟩ := by
  have hexpand : Projection.expand onlyId = onlyId := by rfl
  have hincl : Projection.isInclusion onlyId = .ok true := by rfl
  have htakes : onlyId.get? "_id" = some (.int32 Selection.included) := by rfl
  have htruthy : (Value.int32 Selection.included).truthy = true := by decide
  rw [runProject, Projection.project, hexpand]
  simp only [hincl, Except.map, Projection.take, htakes, htruthy]
  cases row.doc.get? "_id" with
  | none => rfl
  | some id => rfl

theorem get?_id_onlyId (id : Option Value) :
    Document.get? (id.toList.map fun id => ("_id", id)) "_id" = id := by
  cases id with
  | none => rfl
  | some id => simp [Document.get?]

section Store

variable {store : Store}

/-- Fetching without projected fields but the id gives the ids of what passes the match stage. -/
theorem ids_of_fetch {name : String} {c : StoredCollection} {body : Document} {passed : List Row}
    (hc : store.find? name = some c)
    (h : runMatch c.textIndex (c.docs.map .ofDocument) body = .ok passed) :
    ∃ docs, (store.source.fetch name none onlyId (some body)).run.run = .ok docs ∧
      (docs.filterMap fun doc => doc.get? "_id") =
        (passed.map Row.doc).filterMap fun doc => doc.get? "_id" := by
  have hproject : passed.mapM (runProject onlyId) = .ok (passed.map fun row =>
      ⟨(row.doc.get? "_id").toList.map fun id => ("_id", id), row.relevance⟩) := by
    rw [funext runProject_onlyId]
    exact List.mapM_pure
  have hstages : runStages c.textIndex (c.docs.map .ofDocument)
      (Source.fetchStages none onlyId (some body)) = passed.mapM (runProject onlyId) := by
    have hfetch : Source.fetchStages none onlyId (some body) =
        [Stage.toDocument (.filter body), Stage.toDocument (.project onlyId)] := rfl
    rw [hfetch, runStages_cons, runStage_filter, h]
    exact (runStages_singleton _ _ _).trans (runStage_project _ _ _)
  refine ⟨passed.map fun row => (row.doc.get? "_id").toList.map fun id => ("_id", id), ?_, ?_⟩
  · show store.execute name _ = _
    rw [Store.execute, hc]
    simp only [hstages, hproject, Except.map, List.map_map]
    rfl
  · rw [List.filterMap_map, List.filterMap_map]
    refine List.filterMap_congr fun row _ => ?_
    exact get?_id_onlyId _

/-- The ids that are fetched for a clause are those of the documents that satisfy its condition. -/
theorem JoinedClause.idsAre_of_accepted {clause : JoinedClause} (h : clause.Accepted store) :
    ∃ docs, (store.source.fetch clause.collection none onlyId (some clause.condition)).run.run =
        .ok docs ∧
      clause.IdsAre store (docs.filterMap fun doc => doc.get? "_id") := by
  obtain ⟨target, htarget, passed, hpassed⟩ := h
  obtain ⟨docs, hdocs, hids⟩ := ids_of_fetch htarget hpassed
  refine ⟨docs, hdocs, target, htarget, ?_⟩
  intro id
  rw [hids, StoredCollection.docs_of_runMatch hpassed]
  simp [and_assoc]

/-- The ids of each clause are filed, under its slot. -/
abbrev Files (store : Store) : List JoinedClause → ResolvedIds → Prop :=
  List.Forall₂ fun clause filed => filed.1 = clause.slot ∧ clause.IdsAre store filed.2

theorem resolveJoined_eq_ok {clauses : List JoinedClause}
    (h : ∀ clause ∈ clauses, clause.Accepted store) :
    ∃ resolved, (resolveJoined store.source clauses).run.run = .ok resolved ∧
      Files store clauses resolved := by
  induction clauses with
  | nil => exact ⟨[], rfl, .nil⟩
  | cons clause rest ih =>
    rw [List.forall_mem_cons] at h
    obtain ⟨docs, hdocs, hids⟩ := JoinedClause.idsAre_of_accepted h.1
    obtain ⟨others, hothers, hfiles⟩ := ih h.2
    refine ⟨(clause.slot, docs.filterMap fun doc => doc.get? "_id") :: others, ?_, ?_⟩
    · refine Outcome.run_bind_eq_ok_iff.2 ⟨docs, hdocs, ?_⟩
      exact Outcome.run_bind_eq_ok_iff.2 ⟨others, hothers, rfl⟩
    · exact .cons ⟨rfl, hids⟩ hfiles

/-- With slots that are all different, every clause gets back what was filed for it. -/
theorem resolved_get {P : JoinedClause → List Value → Prop} {clauses : List JoinedClause}
    {resolved : ResolvedIds}
    (h : List.Forall₂ (fun clause filed => filed.1 = clause.slot ∧ P clause filed.2) clauses resolved)
    (hnodup : (clauses.map JoinedClause.slot).Nodup) :
    ∀ clause ∈ clauses, P clause (resolved.get clause.slot) := by
  induction h with
  | nil => simp
  | @cons clause filed rest others hfiled _ ih =>
    obtain ⟨slot, ids⟩ := filed
    obtain ⟨rfl, hids⟩ := hfiled
    rw [List.map_cons, List.nodup_cons] at hnodup
    refine List.forall_mem_cons.2 ⟨?_, ?_⟩
    · have hget : ResolvedIds.get ((clause.slot, ids) :: others) clause.slot = ids := by
        simp [ResolvedIds.get]
      rwa [hget]
    · intro other hother
      have hne : other.slot ≠ clause.slot := by
        intro e
        exact hnodup.1 (e ▸ List.mem_map_of_mem hother)
      have hget : ResolvedIds.get ((clause.slot, ids) :: others) other.slot =
          ResolvedIds.get others other.slot := by
        have hbeq : (other.slot == clause.slot) = false := by simpa using hne
        simp [ResolvedIds.get, List.lookup_cons, hbeq]
      rw [hget]
      exact ih hnodup.2 other hother

/-- The ids of the joined clauses of a filter are fetched, and each clause gets its own ones. -/
theorem exists_idsAre_of_accepted {filter : Filter} (hslots : filter.Slotted)
    (h : ∀ clause ∈ filter.joins, clause.Accepted store) :
    ∃ resolved, (resolveJoined store.source filter.joins).run.run = .ok resolved ∧
      ∀ clause ∈ filter.joinedClauses, clause.IdsAre store (resolved.get clause.slot) := by
  obtain ⟨resolved, hresolved, hfiles⟩ := resolveJoined_eq_ok h
  have hperm := filter.joins_perm
  have hnodup : (filter.joins.map JoinedClause.slot).Nodup :=
    (hperm.map JoinedClause.slot).nodup_iff.2 hslots.nodup
  refine ⟨resolved, hresolved, fun clause hc => ?_⟩
  exact resolved_get hfiles hnodup clause (hperm.mem_iff.2 hc)

theorem JoinedClause.IdsAre.foundIn_iff {clause : JoinedClause} {resolved : ResolvedIds}
    {doc : Document} (h : clause.IdsAre store (resolved.get clause.slot)) :
    Clause.FoundIn resolved doc clause ↔ clause.Holds store doc := by
  obtain ⟨target, htarget, hids⟩ := h
  simp only [Clause.FoundIn, hids, Holds, htarget, Option.some.injEq, exists_eq_left']
  constructor
  · rintro ⟨id, ⟨other, hother, hfinds, hid⟩, hequal⟩
    exact ⟨other, hother, hfinds, id, hid, hequal⟩
  · rintro ⟨other, hother, hfinds, id, hid, hequal⟩
    exact ⟨id, ⟨other, hother, hfinds, hid⟩, hequal⟩

/-! ### The Boolean combination -/

namespace Clause

/-- A clause depends on its own joined clauses only. -/
theorem holds_congr {P Q : JoinedClause → Prop} {doc : Document} {relevance : Nat} (clause : Clause)
    (h : ∀ joined ∈ clause.joins, P joined ↔ Q joined) :
    clause.Holds P doc relevance ↔ clause.Holds Q doc relevance := by
  induction clause using ind with
  | field path condition => rfl
  | joined clause => exact h clause (by simp [joins])
  | all clauses ih =>
    rw [Holds, Holds, holdsAll_iff, holdsAll_iff]
    refine forall₂_congr ?_
    intro clause hc
    exact ih clause hc fun joined hj => h joined (mem_joinsOf hc joined hj)
  | any clauses ih =>
    rw [Holds, Holds, holdsAny_iff, holdsAny_iff]
    refine exists_congr fun clause => and_congr_right fun hc => ?_
    exact ih clause hc fun joined hj => h joined (mem_joinsOf hc joined hj)

end Clause

namespace Filter

/-- A filter as a Boolean combination, where `joined` says which of the clauses on joined fields
hold. -/
def Holds (joined : JoinedClause → Prop) (doc : Document) (relevance : Nat) (filter : Filter) :
    Prop :=
  (∀ clause ∈ filter.all, clause.Holds joined doc relevance) ∧
    (filter.any = [] ∨ ∃ clause ∈ filter.any, clause.Holds joined doc relevance) ∧
    (filter.text = none ∨ 0 < relevance)

variable {filter : Filter} {resolved : ResolvedIds} {doc : Document} {relevance : Nat}

theorem holds_congr {P Q : JoinedClause → Prop}
    (h : ∀ joined ∈ filter.joinedClauses, P joined ↔ Q joined) :
    filter.Holds P doc relevance ↔ filter.Holds Q doc relevance := by
  have hclause : ∀ clause ∈ filter.all ++ filter.any,
      (clause.Holds P doc relevance ↔ clause.Holds Q doc relevance) := by
    intro clause hc
    exact clause.holds_congr fun joined hj => h joined (Clause.mem_joinsOf hc joined hj)
  rw [List.forall_mem_append] at hclause
  have hany : (∃ clause ∈ filter.any, clause.Holds P doc relevance) ↔
      ∃ clause ∈ filter.any, clause.Holds Q doc relevance :=
    exists_congr fun clause => and_congr_right fun hc => hclause.2 clause hc
  rw [Holds, Holds, hany]
  exact and_congr_left fun _ => forall₂_congr hclause.1

/-- The rendering of a filter means its Boolean combination. -/
theorem admits_toDocument_iff_holds (hread : Readable (filter.toDocument resolved)) :
    Admits (filter.toDocument resolved) doc relevance ↔
      filter.Holds (Clause.FoundIn resolved doc) doc relevance := by
  have hclauses := (filter.readable_toDocument_iff resolved).1 hread
  rw [List.forall_mem_append] at hclauses
  have hall : (∀ clause ∈ filter.all, Admits (clause.toDocument resolved) doc relevance) ↔
      ∀ clause ∈ filter.all, clause.Holds (Clause.FoundIn resolved doc) doc relevance :=
    forall₂_congr fun clause hc => clause.admits_toDocument_iff (hclauses.1 clause hc)
  have hany : (∃ clause ∈ filter.any, Admits (clause.toDocument resolved) doc relevance) ↔
      ∃ clause ∈ filter.any, clause.Holds (Clause.FoundIn resolved doc) doc relevance := by
    refine exists_congr fun clause => and_congr_right ?_
    intro hc
    exact clause.admits_toDocument_iff (hclauses.2 clause hc)
  rw [filter.admits_toDocument_iff resolved hread, hall, hany, Holds]

end Filter

/-! ### The match stage -/

/-- An empty filter lays out no stage, but it matches everything. -/
theorem runStages_baseStages (textIndex : List String) (rows : List Row) (query : Query)
    (resolved : ResolvedIds) (preStages : List Document) :
    runStages textIndex rows ((query.parts resolved preStages).baseStages.map Stage.toDocument) =
      runMatch textIndex rows (query.filter.toDocument resolved) >>= fun rows =>
        runStages textIndex rows preStages := by
  have hpre : (preStages.map Stage.raw).map Stage.toDocument = preStages := by
    rw [List.map_map]
    exact List.map_id _
  have hbase : (query.parts resolved preStages).baseStages =
      (if (query.filter.toDocument resolved).isEmpty then []
        else [.filter (query.filter.toDocument resolved)]) ++ preStages.map Stage.raw := by
    simp only [PipelineParts.baseStages, Query.parts, Option.filter_some]
    cases (query.filter.toDocument resolved).isEmpty <;> rfl
  rw [hbase, List.map_append, runStages_append, hpre]
  split
  · next hempty => rw [List.isEmpty_iff.1 hempty, List.map_nil, runStages_nil, runMatch_nil]
  · rw [List.map_singleton, runStages_singleton, runStage_filter]

theorem runStages_baseStages_nil (textIndex : List String) (rows : List Row) (query : Query)
    (resolved : ResolvedIds) :
    runStages textIndex rows ((query.parts resolved []).baseStages.map Stage.toDocument) =
      runMatch textIndex rows (query.filter.toDocument resolved) := by
  rw [runStages_baseStages]
  exact bind_pure _

open Classical in
/-- The match stage of a query lets those documents pass that are found with its filter. -/
theorem execute_baseStages {name : String} {c : StoredCollection} {query : Query}
    {resolved : ResolvedIds} (hc : store.find? name = some c)
    (h : c.Accepts (query.filter.toDocument resolved)) :
    store.execute name ((query.parts resolved []).baseStages.map Stage.toDocument) =
      .ok (c.docs.filter fun doc => decide (c.Finds (query.filter.toDocument resolved) doc)) := by
  obtain ⟨passed, hpassed⟩ := h
  rw [Store.execute, hc]
  simp only [runStages_baseStages_nil, hpassed, Except.map, StoredCollection.docs_of_runMatch hpassed]

open Classical in
/-- **Filters on joined fields are exact semi-joins.**  If a store accepts the filter of a request
and the conditions of its joined clauses, then the ids of these clauses are there, every clause is
rendered with its own ids, and the match stage lets a document pass if and only if the Boolean
combination of the request holds, where a joined clause asks for some document in its collection
that satisfies its condition and has its `_id` in the field. -/
theorem Querier.joined_clauses_are_semi_joins {catalog : Catalog} {name : String}
    {request : Request} {query : Query} {base : StoredCollection}
    (hquery : (store.querier catalog name).compile request = .ok query)
    (hbase : store.find? query.collection = some base)
    (haccepts : base.Accepts (query.filter.toDocument []))
    (hjoined : ∀ clause ∈ query.filter.joins, clause.Accepted store) :
    ∃ resolved, (resolveJoined store.source query.filter.joins).run.run = .ok resolved ∧
      (∀ clause ∈ query.filter.joinedClauses, ∃ ids, clause.IdsAre store ids ∧
        (Clause.joined clause).toDocument resolved =
          [(clause.field, .document [("$in", .array ids)])]) ∧
      store.execute query.collection ((query.parts resolved []).baseStages.map Stage.toDocument) =
        .ok (base.docs.filter fun doc => decide (query.filter.Holds (JoinedClause.Holds store doc)
          doc (base.row (query.filter.toDocument resolved) doc).relevance)) := by
  obtain ⟨c, -, hmeans⟩ := compile_eq_ok hquery
  have hslots : query.filter.Slotted := hmeans.filter ▸ c.slotted_filterOf request
  obtain ⟨resolved, hresolved, hids⟩ := exists_idsAre_of_accepted hslots hjoined
  have haccepted : base.Accepts (query.filter.toDocument resolved) :=
    (query.filter.accepts_toDocument_iff base resolved []).2 haccepts
  have hread := (StoredCollection.accepts_iff.1 haccepted).1
  refine ⟨resolved, hresolved, ?_, ?_⟩
  · intro clause hc
    exact ⟨_, hids clause hc, rfl⟩
  · rw [execute_baseStages hbase haccepted]
    refine congrArg Except.ok (List.filter_congr ?_)
    intro doc _
    rw [decide_eq_decide, StoredCollection.finds_iff_admits haccepted,
      Filter.admits_toDocument_iff_holds hread]
    exact Filter.holds_congr fun clause hc => (hids clause hc).foundIn_iff

end Store

/-! ### The posts of one author -/

namespace PostsOfAnn

def collection : Collection :=
  ⟨[("author", ⟨.objectId, some "people", false⟩)], [],
    { Options.standard with defaultFields := none, defaultSort := none }⟩

def catalog : Catalog :=
  [("people", ⟨[("name", ⟨.string, none, false⟩)], [], .standard⟩), ("posts", collection)]

def people : StoredCollection :=
  ⟨[[("_id", .int32 1), ("name", .string "Ann")], [("_id", .int32 2), ("name", .string "Ben")]], []⟩

def posts : StoredCollection :=
  ⟨[[("_id", .int32 7), ("author", .int32 2)], [("_id", .int32 8), ("author", .int32 1)]], []⟩

def store : Store := ⟨[("people", people), ("posts", posts)], ⟨0⟩, 0⟩

def clause : JoinedClause := ⟨0, "author", "people", [("name", .string "Ann")]⟩

/-- What the request for the posts of Ann means. -/
def query : Query where
  collection := "posts"
  filter := ⟨[.joined clause], [], none, 1⟩
  order := ⟨[], []⟩
  selection := none
  project := none
  joins := []
  unwind := none
  page := 1
  limit := 20
  textSearch := false

theorem compile_eq : (store.querier catalog "posts").compile [("author.name", "Ann")] = .ok query := by
  let compiler : Compiler := ⟨catalog, "posts", collection, []⟩
  have hread : Condition.read "Ann" = ⟨false, "Ann", [⟨none, "Ann"⟩]⟩ := by decide +kernel
  have hfilter : compiler.filterOf [("author.name", "Ann")] = query.filter := by
    simp only [Compiler.filterOf, List.foldl_cons, List.foldl_nil, Compiler.addPair, hread]
    rfl
  have hnew : Compiler.new catalog "posts" = .ok compiler := rfl
  rw [Querier.compile, hnew, Outcome.ok_bind, Compiler.compile, hfilter]
  rfl

open Classical in
theorem joined_clauses_are_semi_joins_of_ann :
    ∃ resolved, (resolveJoined store.source query.filter.joins).run.run = .ok resolved ∧
      store.execute "posts" ((query.parts resolved []).baseStages.map Stage.toDocument) =
        .ok (posts.docs.filter fun doc => decide (query.filter.Holds (JoinedClause.Holds store doc)
          doc (posts.row (query.filter.toDocument resolved) doc).relevance)) := by
  have haccepts : posts.Accepts (query.filter.toDocument []) := ⟨[], by rfl⟩
  have hjoined : clause.Accepted store :=
    ⟨people, rfl, [⟨[("_id", .int32 1), ("name", .string "Ann")], 0⟩], by rfl⟩
  obtain ⟨resolved, hresolved, -, hexecute⟩ := Querier.joined_clauses_are_semi_joins compile_eq rfl
    haccepts (List.forall_mem_singleton.2 hjoined)
  exact ⟨resolved, hresolved, hexecute⟩

end PostsOfAnn

end DocQuery
