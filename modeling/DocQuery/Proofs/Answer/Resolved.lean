import DocQuery.Proofs.Answer.Joined
import DocQuery.Proofs.Path.Filled
import DocQuery.Proofs.Value.Ids

/-!
# How joins are resolved

Resolving fetches once for each join that has an id in the batch and then changes the fields of all
joins in each document by itself (`Join.resolve_eq_ok_iff`).  A fetch by ids gives the documents of the
other collection with one of these ids, projected one by one (`Store.fetch_ids`).  So which document is
put in place of an id does not depend on the other ids that were fetched with it
(`Join.lastWithId_fetched`).
-/

namespace DocQuery

open Execution Test

/-- The documents of a collection are named by ids. -/
def StoredCollection.NamedByIds (c : StoredCollection) : Prop :=
  ∀ doc ∈ c.docs, ∀ id, doc.get? "_id" = some id → id.IsId

/-! ### Fetching by ids -/

theorem equalsAny_id {doc : Document} {id : Value}
    (hdoc : ∀ own, doc.get? "_id" = some own → own.IsId) (hid : id.IsId) :
    equalsAny doc "_id" id = (doc.get? "_id").any fun own => own.equals id := by
  have hpath : Path.ofText "_id" = ["_id"] := Path.ofText_of_plain (by decide)
  have hany : equalsAny doc "_id" id = (valuesAt doc "_id").any fun value => value.equals id := by
    cases hid <;> rfl
  rw [hany, valuesAt, hpath, Path.candidates_cons]
  cases hget : doc.get? "_id" with
  | none => rfl
  | some own =>
    have hown := hdoc own hget
    cases hown <;> simp [Path.below]

theorem mapM_runProject (body : Document) (docs : List Document) :
    ((docs.map Row.ofDocument).mapM (runProject body)).map (List.map Row.doc) =
      docs.mapM fun doc => Projection.project 0 doc body := by
  induction docs with
  | nil => rfl
  | cons doc rest ih =>
    have hrow : runProject body (.ofDocument doc) =
        (Projection.project 0 doc body).map Row.ofDocument := rfl
    rw [List.map_cons, List.mapM_cons, List.mapM_cons, ← ih, hrow]
    cases Projection.project 0 doc body with
    | error e => rfl
    | ok projected =>
      cases (rest.map Row.ofDocument).mapM (runProject body) <;> rfl

/-- Fetching by ids gives the documents that have one of them, projected one by one. -/
theorem Store.fetch_ids {store : Store} {name : String} {c : StoredCollection}
    (hc : store.find? name = some c) (ids : List Value) {body : Document} (hbody : body ≠ []) :
    (store.source.fetch name (some ids) body none).run.run =
      (c.docs.filter fun doc => ids.any (equalsAny doc "_id")).mapM
        fun doc => Projection.project 0 doc body := by
  have hstages : Source.fetchStages (some ids) body none =
      [Stage.filter (Source.fetchBody (some ids) none), .project body].map Stage.toDocument := by
    rw [Source.fetchStages, if_neg (by simpa using hbody)]
    rfl
  have hmatch : runMatch c.textIndex (c.docs.map Row.ofDocument) (Source.fetchBody (some ids) none) =
      .ok ((c.docs.filter fun doc => ids.any (equalsAny doc "_id")).map Row.ofDocument) := by
    have hfield : isOperatorKey "_id" = false := by decide
    have hread : Test.read (Source.fetchBody (some ids) none) = .ok (.oneOf "_id" ids) :=
      read_singleton_iff.2 (readField_in hfield ids)
    refine runMatch_eq_ok_iff.2 ⟨.oneOf "_id" ids, hread, .inl rfl, ?_⟩
    have hrated : rated c.textIndex (.oneOf "_id" ids) = id := rfl
    rw [hrated, List.map_id, List.filter_map]
    rfl
  show store.execute name _ = _
  rw [Store.execute, hc, hstages, ← mapM_runProject]
  simp only [List.map_cons, List.map_nil, runStages_cons, runStages_nil, runStage_filter,
    runStage_project, hmatch, Outcome.ok_bind]
  exact congrArg (Except.map _) (bind_pure _)

/-! ### The document for an id -/

namespace Join

/-- The texts of the first values are the texts of all values. -/
theorem exists_mem_firsts {value : Value} {seen : List String} {values : List Value}
    (hvalue : value ∈ values) (hseen : value.display ∉ seen) :
    ∃ first ∈ firsts seen values, first.display = value.display := by
  induction values generalizing seen with
  | nil => cases hvalue
  | cons other rest ih =>
    rw [firsts]
    split
    · next hother =>
      rcases List.mem_cons.1 hvalue with rfl | hvalue
      · exact absurd (by simpa using hother) hseen
      · exact ih hvalue hseen
    · by_cases hsame : other.display = value.display
      · exact ⟨other, List.mem_cons_self, hsame⟩
      · have hrest : value ∈ rest := by
          rcases List.mem_cons.1 hvalue with rfl | hvalue
          · exact absurd rfl hsame
          · exact hvalue
        have hnext : value.display ∉ other.display :: seen := by simpa [Ne.symm hsame] using hseen
        obtain ⟨first, hfirst, htext⟩ := ih hrest hnext
        exact ⟨first, List.mem_cons_of_mem _ hfirst, htext⟩

theorem mem_of_mem_firsts {value : Value} {seen : List String} {values : List Value}
    (h : value ∈ firsts seen values) : value ∈ values := by
  induction values generalizing seen with
  | nil => cases h
  | cons other rest ih =>
    rw [firsts] at h
    split at h
    · exact List.mem_cons_of_mem _ (ih h)
    · rcases List.mem_cons.1 h with rfl | h
      · exact List.mem_cons_self
      · exact List.mem_cons_of_mem _ (ih h)

/-- Whether a document of the other collection is projected to one whose id reads like `id`. -/
def Shows (body : Document) (id : Value) (doc : Document) : Bool :=
  (Projection.project 0 doc body).toOption.any fun shown =>
    (shown.get? "_id").map Value.display == some id.display

theorem find?_of_forall₂ {α β ε : Type} {f : α → Except ε β} {q : β → Bool} {xs : List α} {ys : List β}
    (h : List.Forall₂ (fun x y => f x = .ok y) xs ys) :
    ys.find? q = (xs.find? fun x => (f x).toOption.any q).bind fun x => (f x).toOption := by
  induction h with
  | nil => rfl
  | @cons x y xs ys hxy _ ih =>
    rw [List.find?_cons, List.find?_cons, hxy]
    show _ = Option.bind (match q y with | true => some x | false => _) _
    cases q y with
    | true => rw [Option.bind_some, hxy]; rfl
    | false => exact ih

/-- The document for an id is the last one of the whole collection that shows this id, if whatever
shows it was fetched. -/
theorem lastWithId_fetched {docs fetched : List Document} {ids : List Value} {id : Value}
    {body : Document}
    (hfetched : (docs.filter fun doc => ids.any (equalsAny doc "_id")).mapM
      (fun doc => Projection.project 0 doc body) = .ok fetched)
    (hshows : ∀ doc ∈ docs, Shows body id doc = true → ids.any (equalsAny doc "_id") = true) :
    lastWithId fetched id =
      (docs.reverse.find? (Shows body id)).bind
        fun doc => (Projection.project 0 doc body).toOption := by
  have hforall := List.rel_reverse (Outcome.mapM_eq_ok_iff.1 hfetched)
  have hfilter : ∀ docs : List Document, (∀ doc ∈ docs, Shows body id doc = true →
      ids.any (equalsAny doc "_id") = true) →
        (docs.filter fun doc => ids.any (equalsAny doc "_id")).find? (Shows body id) =
          docs.find? (Shows body id) := by
    intro docs hdocs
    rw [← List.head?_filter, ← List.head?_filter, List.filter_filter]
    refine congrArg List.head? (List.filter_congr fun doc hdoc => ?_)
    cases hshown : Shows body id doc with
    | false => rfl
    | true => rw [hdocs doc hdoc hshown]; rfl
  rw [lastWithId, find?_of_forall₂ hforall, ← List.filter_reverse]
  refine congrArg (fun found => Option.bind found _) (hfilter docs.reverse ?_)
  exact fun doc hdoc => hshows doc (List.mem_reverse.1 hdoc)

/-- The ids of a batch are values that stand in the field. -/
theorem mem_idsIn {docs : List Document} {field : String} {id : Value} (h : id ∈ idsIn docs field) :
    ∃ doc ∈ docs, id ∈ Path.candidates doc (Path.ofText field) ∧ id.isArray = false ∧
      isNull id = false := by
  obtain ⟨hmem, hnull⟩ := List.mem_filter.1 (mem_of_mem_firsts h)
  obtain ⟨doc, hdoc, hleaf⟩ := List.mem_flatMap.1 hmem
  obtain ⟨hcandidate, harray⟩ := List.mem_filter.1 hleaf
  exact ⟨doc, hdoc, hcandidate, by simpa using harray, by simpa using hnull⟩

/-- The text of whatever stands in the field as an id is the text of an id of the batch. -/
theorem exists_mem_idsIn {docs : List Document} {field : String} {doc : Document} {id : Value}
    (hdoc : doc ∈ docs) (hid : id ∈ Path.candidates doc (Path.ofText field))
    (harray : id.isArray = false) (hnull : isNull id = false) :
    ∃ first ∈ idsIn docs field, first.display = id.display := by
  refine exists_mem_firsts (List.mem_filter.2 ⟨List.mem_flatMap.2 ⟨doc, hdoc, ?_⟩, by simp [hnull]⟩)
    (by simp)
  exact List.mem_filter.2 ⟨hid, by simp [harray]⟩

/-! ### All joins -/

section Resolve

variable (store : Store) (docs : List Document)

/-- What the source answers to the fetch of a join. -/
def answer (join : Join) : Except StoreError (List Document) :=
  (store.source.fetch join.collection (some (idsIn docs join.field)) join.projection none).run.run

/-- The documents that are fetched for a join. -/
def found (join : Join) : List Document := (answer store docs join).toOption.getD []

/-- What becomes of a value in the field of a join.  Without an id in the batch nothing is fetched for
the join, and every value stays. -/
def change (join : Join) : Value → Option Value :=
  if idsIn docs join.field = [] then some else joinedValue (found store docs join)

/-- The fields of joins, and what becomes of the values in each. -/
def changesBy (changes : Join → Value → Option Value) (joins : List Join) :
    List (Path × (Value → Option Value)) :=
  joins.map fun join => (Path.ofText join.field, changes join)

theorem pending_cons (join : Join) (rest : List Join) : pending (join :: rest) docs =
    if idsIn docs join.field = [] then pending rest docs
    else (join, idsIn docs join.field) :: pending rest docs := by
  rw [pending, List.filterMap_cons]
  cases h : idsIn docs join.field <;> rfl

theorem found_of_answer {join : Join} {fetched : List Document}
    (h : answer store docs join = .ok fetched) : found store docs join = fetched := by
  rw [found, h]
  rfl

/-- All that is pending is fetched if each fetch is answered. -/
theorem fetchAll_pending_eq_ok_iff {joins : List Join} {fetched : List (Join × List Document)} :
    (fetchAll store.source (pending joins docs)).run.run = .ok fetched ↔
      (∀ join ∈ joins, idsIn docs join.field ≠ [] → ∃ got, answer store docs join = .ok got) ∧
        fetched = (pending joins docs).map fun entry => (entry.1, found store docs entry.1) := by
  induction joins generalizing fetched with
  | nil =>
    rw [pending, List.filterMap_nil, fetchAll, Outcome.run_pure_eq_ok_iff]
    exact ⟨fun h => ⟨by simp, h.symm⟩, fun h => h.2.symm⟩
  | cons join rest ih =>
    rw [pending_cons, List.forall_mem_cons]
    by_cases hids : idsIn docs join.field = []
    · simp [hids, ih]
    · rw [if_neg hids, fetchAll]
      simp only [Outcome.run_bind_eq_ok_iff, Outcome.run_pure_eq_ok_iff, ih, List.map_cons]
      constructor
      · rintro ⟨got, hgot, others, ⟨hrest, rfl⟩, rfl⟩
        exact ⟨⟨fun _ => ⟨got, hgot⟩, hrest⟩, by rw [found_of_answer store docs hgot]⟩
      · rintro ⟨⟨hjoin, hrest⟩, rfl⟩
        obtain ⟨got, hgot⟩ := hjoin hids
        exact ⟨got, hgot, _, ⟨hrest, rfl⟩, by rw [found_of_answer store docs hgot]⟩

theorem mergeAll_eq_map (fetched : List (Join × List Document)) : mergeAll fetched docs =
    docs.map (Path.updateAll (fetched.map fun entry =>
      (Path.ofText entry.1.field, joinedValue entry.2))) := by
  induction fetched generalizing docs with
  | nil => exact (List.map_id' docs).symm
  | cons entry rest ih =>
    obtain ⟨join, found⟩ := entry
    rw [mergeAll_cons, ih, List.map_map]
    rfl

/-- Leaving out the joins without ids changes nothing. -/
theorem updateAll_pending (joins : List Join) (doc : Document) :
    Path.updateAll ((pending joins docs).map fun entry =>
        (Path.ofText entry.1.field, joinedValue (found store docs entry.1))) doc =
      Path.updateAll (changesBy (change store docs) joins) doc := by
  induction joins generalizing doc with
  | nil => rfl
  | cons join rest ih =>
    rw [pending_cons, changesBy, List.map_cons, Path.updateAll_cons, change]
    split
    · rw [Path.update_some]
      exact ih doc
    · rw [List.map_cons, Path.updateAll_cons]
      exact ih _

/-- Joins are resolved if each of those with an id in the batch is answered, and then each document
is changed by itself. -/
theorem resolve_eq_ok_iff {joins : List Join} {joined : List Document} :
    (resolve store.source joins docs).run.run = .ok joined ↔
      (∀ join ∈ joins, idsIn docs join.field ≠ [] → ∃ got, answer store docs join = .ok got) ∧
        joined = docs.map (Path.updateAll (changesBy (change store docs) joins)) := by
  have hmerge : mergeAll ((pending joins docs).map fun entry => (entry.1, found store docs entry.1))
      docs = docs.map (Path.updateAll (changesBy (change store docs) joins)) := by
    rw [mergeAll_eq_map, List.map_map]
    exact List.map_congr_left fun doc _ => updateAll_pending store docs joins doc
  rw [resolve, Outcome.run_bind_eq_ok_iff]
  simp only [Outcome.run_pure_eq_ok_iff, fetchAll_pending_eq_ok_iff]
  constructor
  · rintro ⟨_, ⟨hanswers, rfl⟩, rfl⟩
    exact ⟨hanswers, hmerge⟩
  · rintro ⟨hanswers, rfl⟩
    exact ⟨_, ⟨hanswers, rfl⟩, hmerge⟩

variable {store docs} {join : Join} {target : StoredCollection}

theorem answer_eq (htarget : store.find? join.collection = some target) :
    answer store docs join =
      (target.docs.filter fun doc => (idsIn docs join.field).any (equalsAny doc "_id")).mapM
        fun doc => Projection.project 0 doc join.projection :=
  Store.fetch_ids htarget _ (projection_ne_nil join)

/-- The document for an id that comes up in the batch is the last one of the other collection that
shows this id, provided that only documents with the id show it. -/
theorem lastWithId_found (htarget : store.find? join.collection = some target)
    (hnamed : target.NamedByIds) (hanswer : ∃ got, answer store docs join = .ok got) {id : Value}
    (hid : ∃ first ∈ idsIn docs join.field, first.IsId ∧ first.display = id.display)
    (hshows : ∀ doc ∈ target.docs, Shows join.projection id doc = true →
      ∃ own, doc.get? "_id" = some own ∧ own.display = id.display) :
    lastWithId (found store docs join) id =
      (target.docs.reverse.find? (Shows join.projection id)).bind
        fun doc => (Projection.project 0 doc join.projection).toOption := by
  obtain ⟨got, hgot⟩ := hanswer
  rw [found_of_answer store docs hgot]
  rw [answer_eq htarget] at hgot
  refine lastWithId_fetched hgot fun doc hdoc hshown => ?_
  obtain ⟨own, hown, htext⟩ := hshows doc hdoc hshown
  obtain ⟨first, hfirst, hisId, hsame⟩ := hid
  refine List.any_eq_true.2 ⟨first, hfirst, ?_⟩
  rw [equalsAny_id (hnamed doc hdoc) hisId, hown]
  exact (Value.equals_iff_display_eq (hnamed doc hdoc own hown) hisId).2 (htext.trans hsame.symm)

end Resolve

end Join

end DocQuery
