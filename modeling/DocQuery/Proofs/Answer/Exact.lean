import DocQuery.Proofs.Answer.Protection
import DocQuery.Proofs.Answer.Resolved
import DocQuery.Source.Recorded

/-!
# Joins are exact

What a join should do is said without batches: in the place of an id stands the last document of the
other collection whose `_id` equals it, projected by the join (`Join.documentFor`); in the place of an
array stand the documents of its ids; and nothing else changes (`Value.filledFields`).  Resolving the
joins of a query does exactly this, and asks the source once for each join that has an id in the batch
(`Querier.joins_are_exact`).
-/

namespace DocQuery

open Selection

/-! ### What joins should do -/

/-- The document of a collection with an id: the last one whose `_id` equals it. -/
def StoredCollection.documentWith (c : StoredCollection) (id : Value) : Option Document :=
  c.docs.reverse.find? fun doc => (doc.get? "_id").any fun own => own.equals id

namespace Join

/-- The document that a join puts in the place of an id. -/
def documentFor (store : Store) (join : Join) (id : Value) : Option Document := do
  let target ← store.find? join.collection
  let doc ← target.documentWith id
  (Projection.project 0 doc join.projection).toOption

/-- What a join puts in the place of a value; nothing in that of an id without a document. -/
def replaced (store : Store) (join : Join) : Value → Option Value
  | .array ids => some (.array (ids.filterMap fun id => (documentFor store join id).map .document))
  | .null => some .null
  | id => (documentFor store join id).map .document

/-- What becomes of the fields of joins; the other fields stay. -/
def filling (store : Store) (joins : List Join) : Filling :=
  fun path => (joins.map fun join => (Path.ofText join.field, replaced store join)).lookup path

/-- In the field of a join stand ids, arrays of ids, and null. -/
def HoldsIds (docs : List Document) (join : Join) : Prop :=
  ∀ doc ∈ docs, ∀ value ∈ Path.candidates doc (Path.ofText join.field),
    value.IsId ∨ value = .null ∨ ∃ ids, value = .array ids ∧ ∀ id ∈ ids, id.IsId

/-- Some value in the field of a join is an id. -/
def HasIds (docs : List Document) (join : Join) : Prop :=
  ∃ doc ∈ docs, ∃ value ∈ Path.candidates doc (Path.ofText join.field), value.IsId

/-- The pipeline that fetches the documents of a join. -/
def call (docs : List Document) (join : Join) : String × List Document :=
  (join.collection, Source.fetchStages (some (idsIn docs join.field)) join.projection none)

/-! ### Projecting by a join -/

variable {store : Store} {docs : List Document} {join : Join} {target : StoredCollection}

/-- The projection of a join takes fields. -/
theorem project_eq_take (hwritten : Fits (written included) join.selection) (doc : Document) :
    Projection.project 0 doc join.projection = .ok (Projection.take 0 doc join.projection) := by
  have hnested := nested_orId (nested_canonical join.selection)
  have hfits := fits_orId (fits_canonical hwritten)
  obtain ⟨key, hkey⟩ := exists_key_orId join.selection.canonical
  have hinclusion := join.asks_projection.isInclusion_included hfits hnested ⟨key, hkey, by simp⟩
  rw [Projection.project, join.asks_projection.expand_eq hfits hnested, hinclusion]
  rfl

/-- The projection of a join always gives a document, and keeps its id. -/
theorem exists_project_eq_ok (hwritten : Fits (written included) join.selection) (doc : Document) :
    ∃ projected, Projection.project 0 doc join.projection = .ok projected ∧
      projected.get? "_id" = doc.get? "_id" :=
  ⟨_, project_eq_take hwritten doc,
    join.asks_projection.get?_take_id (fits_orId (fits_canonical hwritten)) doc⟩

/-! ### Each value -/

theorem isArray_of_isId {id : Value} (h : id.IsId) : id.isArray = false := by cases h <;> rfl

theorem isNull_of_isId {id : Value} (h : id.IsId) : isNull id = false := by cases h <;> rfl

/-- The ids of a batch are ids. -/
theorem isId_of_mem_idsIn (hholds : HoldsIds docs join) {id : Value}
    (h : id ∈ idsIn docs join.field) : id.IsId := by
  obtain ⟨doc, hdoc, hcandidate, harray, hnull⟩ := mem_idsIn h
  rcases hholds doc hdoc id hcandidate with hid | rfl | ⟨ids, rfl, -⟩
  · exact hid
  · cases hnull
  · cases harray

theorem idsIn_ne_nil_iff (hholds : HoldsIds docs join) :
    idsIn docs join.field ≠ [] ↔ HasIds docs join := by
  constructor
  · intro hne
    obtain ⟨id, hid⟩ := List.exists_mem_of_ne_nil _ hne
    obtain ⟨doc, hdoc, hcandidate, -⟩ := mem_idsIn hid
    exact ⟨doc, hdoc, id, hcandidate, isId_of_mem_idsIn hholds hid⟩
  · rintro ⟨doc, hdoc, id, hcandidate, hid⟩
    obtain ⟨first, hfirst, -⟩ :=
      exists_mem_idsIn hdoc hcandidate (isArray_of_isId hid) (isNull_of_isId hid)
    exact List.ne_nil_of_mem hfirst

theorem exists_answer (htarget : store.find? join.collection = some target)
    (hwritten : Fits (written included) join.selection) :
    ∃ got, answer store docs join = .ok got := by
  choose projected hprojected _ using exists_project_eq_ok hwritten
  refine ⟨(target.docs.filter fun doc => (idsIn docs join.field).any (Test.equalsAny doc "_id")).map
    projected, ?_⟩
  rw [answer_eq htarget, Outcome.mapM_eq_ok_iff, List.forall₂_map_right_iff, List.forall₂_same]
  exact fun doc _ => hprojected doc

/-- What is put in place of an id is the document that should be there. -/
theorem lastWithId_eq_documentFor (htarget : store.find? join.collection = some target)
    (hnamed : target.NamedByIds) (hwritten : Fits (written included) join.selection)
    (hholds : HoldsIds docs join) {doc : Document} (hdoc : doc ∈ docs) {id : Value} (hid : id.IsId)
    (hcandidate : id ∈ Path.candidates doc (Path.ofText join.field)) :
    lastWithId (found store docs join) id = documentFor store join id := by
  have hshows : ∀ doc ∈ target.docs, Shows join.projection id doc =
      (doc.get? "_id").any fun own => own.equals id := by
    intro doc hdoc
    obtain ⟨projected, hprojected, hkeeps⟩ := exists_project_eq_ok hwritten doc
    rw [Shows, hprojected]
    show ((projected.get? "_id").map Value.display == some id.display) = _
    rw [hkeeps]
    cases hget : doc.get? "_id" with
    | none => rfl
    | some own =>
      rw [Bool.eq_iff_iff, Option.map_some, beq_iff_eq, Option.some.injEq, Option.any_some]
      exact (Value.equals_iff_display_eq (hnamed doc hdoc own hget) hid).symm
  obtain ⟨first, hfirst, hsame⟩ :=
    exists_mem_idsIn hdoc hcandidate (isArray_of_isId hid) (isNull_of_isId hid)
  have hlast := lastWithId_found htarget hnamed (exists_answer htarget hwritten)
    ⟨first, hfirst, isId_of_mem_idsIn hholds hfirst, hsame⟩ (by
      intro other hother hshown
      rw [hshows other hother, Option.any_eq_true] at hshown
      obtain ⟨own, hown, hequals⟩ := hshown
      exact ⟨own, hown, (Value.equals_iff_display_eq (hnamed other hother own hown) hid).1 hequals⟩)
  have hfind : target.docs.reverse.find? (Shows join.projection id) = target.documentWith id := by
    rw [StoredCollection.documentWith, ← List.head?_filter, ← List.head?_filter]
    refine congrArg List.head? (List.filter_congr fun doc hdoc => ?_)
    exact hshows doc (List.mem_reverse.1 hdoc)
  rw [hlast, hfind, documentFor, htarget]
  rfl

/-- What becomes of a value in the field of a join is what should become of it. -/
theorem change_eq_replaced (htarget : store.find? join.collection = some target)
    (hnamed : target.NamedByIds) (hwritten : Fits (written included) join.selection)
    (hholds : HoldsIds docs join) {doc : Document} (hdoc : doc ∈ docs) {value : Value}
    (hvalue : value ∈ Path.candidates doc (Path.ofText join.field)) :
    change store docs join value = replaced store join value := by
  have hlast : ∀ id, id.IsId → id ∈ Path.candidates doc (Path.ofText join.field) →
      lastWithId (found store docs join) id = documentFor store join id := fun id =>
    lastWithId_eq_documentFor htarget hnamed hwritten hholds hdoc
  have hitems : ∀ ids : List Value, .array ids ∈ Path.candidates doc (Path.ofText join.field) →
      ∀ id ∈ ids, id ∈ Path.candidates doc (Path.ofText join.field) := by
    intro ids hids id hid
    rcases Path.mem_candidates_of_mem_array hids hid with hfound | ⟨outer, houter, hnested⟩
    · exact hfound
    · -- an array is no id, so it is no item of an array of ids
      rcases hholds doc hdoc _ houter with houter | houter | ⟨others, houter, hothers⟩
      · cases houter
      · cases houter
      · obtain rfl := Value.array.inj houter
        cases hothers _ hnested
  rw [change]
  split
  · next hnone =>
    have hnoId : ∀ id, id.IsId → id ∉ Path.candidates doc (Path.ofText join.field) := by
      intro id hid hcandidate
      exact (idsIn_ne_nil_iff hholds).2 ⟨doc, hdoc, id, hcandidate, hid⟩ hnone
    rcases hholds doc hdoc value hvalue with hid | rfl | ⟨ids, rfl, hids⟩
    · exact absurd hvalue (hnoId value hid)
    · rfl
    · have hempty : ids = [] := List.eq_nil_iff_forall_not_mem.2 fun id hid =>
        hnoId id (hids id hid) (hitems ids hvalue id hid)
      rw [hempty]
      rfl
  · rcases hholds doc hdoc value hvalue with hid | rfl | ⟨ids, rfl, hids⟩
    · have hcase := hlast value hid hvalue
      cases hid <;> exact congrArg (Option.map Value.document) hcase
    · rfl
    · rw [joinedValue, replaced]
      refine congrArg (fun items => some (Value.array items)) (List.filterMap_congr fun id hid => ?_)
      rw [hlast id (hids id hid) (hitems ids hvalue id hid)]

/-! ### All joins of a query -/

theorem wellKeyed_replaced (hstore : store.WellKeyed) {value new : Value}
    (h : replaced store join value = some new) : new.WellKeyed := by
  have hdocument : ∀ (id : Value) (doc : Document), documentFor store join id = some doc →
      (Value.document doc).WellKeyed := by
    intro id doc hdoc
    obtain ⟨target, htarget, hdoc⟩ := Option.bind_eq_some_iff.1 hdoc
    obtain ⟨original, horiginal, hproject⟩ := Option.bind_eq_some_iff.1 hdoc
    have hmem : original ∈ target.docs := List.mem_reverse.1 (List.mem_of_find?_eq_some horiginal)
    cases hprojected : Projection.project 0 original join.projection with
    | error e => simp [hprojected, Except.toOption] at hproject
    | ok projected =>
      obtain rfl : projected = doc := by simpa [hprojected, Except.toOption] using hproject
      exact Projection.wellKeyed_project (hstore _ _ htarget _ hmem) hprojected
  unfold replaced at h
  split at h
  · obtain rfl := Option.some.inj h
    rw [Value.wellKeyed_array_iff]
    intro item hitem
    obtain ⟨id, -, hid⟩ := List.mem_filterMap.1 hitem
    obtain ⟨doc, hdoc, rfl⟩ := Option.map_eq_some_iff.1 hid
    exact hdocument id doc hdoc
  · obtain rfl := Option.some.inj h
    trivial
  · obtain ⟨doc, hdoc, rfl⟩ := Option.map_eq_some_iff.1 h
    exact hdocument _ doc hdoc

/-- Resolving joins whose fields are apart gives each document with its fields filled in. -/
theorem resolve_eq_filled {joins : List Join} (hstore : store.WellKeyed)
    (hdocs : Document.AllWellKeyed docs)
    (hapart : joins.Pairwise fun join other =>
      Path.Apart (Path.ofText join.field) (Path.ofText other.field))
    (hwritten : ∀ join ∈ joins, Fits (written included) join.selection)
    (htargets : ∀ join ∈ joins, ∃ target, store.find? join.collection = some target ∧
      target.NamedByIds)
    (hholds : ∀ join ∈ joins, HoldsIds docs join) :
    (resolve store.source joins docs).run.run =
      .ok (docs.map (Value.filledFields (filling store joins) [])) := by
  refine (resolve_eq_ok_iff store docs).2 ⟨?_, List.map_congr_left fun doc hdoc => ?_⟩
  · intro join hjoin _
    obtain ⟨target, htarget, -⟩ := htargets join hjoin
    exact exists_answer htarget (hwritten join hjoin)
  · have hchange : Path.updateAll (changesBy (change store docs) joins) doc =
        Path.updateAll (changesBy (replaced store) joins) doc := by
      refine Path.updateAll_congr hapart fun join hjoin value hvalue => ?_
      obtain ⟨target, htarget, hnamed⟩ := htargets join hjoin
      exact change_eq_replaced htarget hnamed (hwritten join hjoin) (hholds join hjoin) hdoc hvalue
    rw [hchange]
    refine (Path.updateAll_eq_filled (hdocs doc hdoc) ?_ ?_ ?_).symm
    · exact List.pairwise_map.2 hapart
    · exact List.forall_mem_map.2 fun join _ => Path.ofText_ne_nil _
    · exact List.forall_mem_map.2 fun join _ value new _ hnew => wellKeyed_replaced hstore hnew

/-! ### What is asked of the source -/

section Recorded

theorem run_bind_recorded {α β : Type} {x : ExceptT StoreError (StateM Recording) α}
    {f : α → ExceptT StoreError (StateM Recording) β} {r after : Recording} {a : α}
    (h : x.run.run r = (.ok a, after)) : (x >>= f).run.run r = (f a).run.run after := by
  rw [ExceptT.run_bind, StateT.run_bind, h]
  rfl

/-- A recorded source is asked for the documents of each join once, and answers like its store. -/
theorem fetchAll_recorded {entries : List (Join × List Value)}
    {fetched : List (Join × List Document)} {r : Recording} (hr : r.answers = [])
    (h : (fetchAll r.store.source entries).run.run = .ok fetched) :
    (fetchAll Recording.source entries).run.run r =
      (.ok fetched, { r with calls := r.calls ++ entries.map fun entry =>
        (entry.1.collection, Source.fetchStages (some entry.2) entry.1.projection none) }) := by
  induction entries generalizing fetched r with
  | nil =>
    obtain rfl := Outcome.run_pure_eq_ok_iff.1 h
    rw [List.map_nil, List.append_nil]
    rfl
  | cons entry rest ih =>
    obtain ⟨join, ids⟩ := entry
    rw [fetchAll] at h
    obtain ⟨got, hgot, h⟩ := Outcome.run_bind_eq_ok_iff.1 h
    obtain ⟨others, hothers, h⟩ := Outcome.run_bind_eq_ok_iff.1 h
    obtain rfl := Outcome.run_pure_eq_ok_iff.1 h
    have hfetch : (Recording.source.fetch join.collection (some ids) join.projection none).run.run r =
        (.ok got, { r with calls := r.calls ++
          [(join.collection, Source.fetchStages (some ids) join.projection none)] }) := by
      show r.execute _ _ = _
      rw [Recording.execute, hr]
      exact congrArg (Prod.mk · _) hgot
    have hrest := ih (r := { r with calls := r.calls ++
      [(join.collection, Source.fetchStages (some ids) join.projection none)] }) hr hothers
    rw [fetchAll, run_bind_recorded hfetch, run_bind_recorded hrest, List.map_cons,
      List.append_cons r.calls _ (List.map _ rest)]
    rfl

open Classical in
theorem map_pending {joins : List Join} (hholds : ∀ join ∈ joins, HoldsIds docs join) :
    ((pending joins docs).map fun entry =>
        (entry.1.collection, Source.fetchStages (some entry.2) entry.1.projection none)) =
      (joins.filter fun join => decide (HasIds docs join)).map (call docs) := by
  induction joins with
  | nil => rfl
  | cons join rest ih =>
    rw [List.forall_mem_cons] at hholds
    rw [pending_cons, List.filter_cons]
    by_cases hids : HasIds docs join
    · have hne := (idsIn_ne_nil_iff hholds.1).2 hids
      rw [if_neg hne, if_pos (decide_eq_true hids), List.map_cons, List.map_cons, ih hholds.2]
      rfl
    · have hnil : idsIn docs join.field = [] :=
        not_not.1 fun hne => hids ((idsIn_ne_nil_iff hholds.1).1 hne)
      rw [if_pos hnil, if_neg (by simp [hids]), ih hholds.2]

open Classical in
/-- Resolving joins asks a recorded source once for each join that has an id in the batch. -/
theorem resolve_recorded {joins : List Join} {joined : List Document}
    (hholds : ∀ join ∈ joins, HoldsIds docs join)
    (h : (resolve store.source joins docs).run.run = .ok joined) :
    (resolve Recording.source joins docs).run.run (Recording.ofStore store) =
      (.ok joined,
        ⟨store, [], (joins.filter fun join => decide (HasIds docs join)).map (call docs)⟩) := by
  obtain ⟨fetched, hfetched, h⟩ := Outcome.run_bind_eq_ok_iff.1 h
  obtain rfl := Outcome.run_pure_eq_ok_iff.1 h
  rw [resolve, run_bind_recorded (fetchAll_recorded (r := Recording.ofStore store) rfl hfetched),
    map_pending hholds]
  rfl

end Recorded

end Join

/-! ### The joins of a query -/

/-- The joins of a query stand at fields that are apart, and select their fields by one marker. -/
theorem Querier.planned_of_compile {store : Store} {catalog : Catalog} {name : String}
    {request : Request} {query : Query}
    (hquery : (store.querier catalog name).compile request = .ok query) :
    (query.joins.Pairwise fun join other =>
        Path.Apart (Path.ofText join.field) (Path.ofText other.field)) ∧
      ∀ join ∈ query.joins, Fits (written included) join.selection := by
  obtain ⟨c, -, hmeans⟩ := Querier.compile_eq_ok hquery
  cases hselection : query.selection with
  | none =>
    rw [hmeans.joinsOfNone hselection]
    simp
  | some selection =>
    have hselects := hmeans.selects hselection
    have hplanned := hselects.planned
    refine ⟨?_, hselects.joins_written⟩
    refine (List.pairwise_map.1 hplanned.distinct).imp_of_mem ?_
    intro join other hjoin hother hne
    exact Join.apart_of_planned (hplanned.each join hjoin) (hplanned.each other hother) hne

open Classical in
/-- **Joins are exact.**  If the ids in the store and in the fields of the joins are of the kinds that
name documents, then resolving the joins of a query puts the last document with an equal `_id`,
projected by the join, in the place of each id, the documents of its ids in the place of each array,
and changes nothing else (`Value.filledFields`).  The source is asked once for each join that has an
id in the batch, and not for the others.  No projection of a join can fail or lose the id. -/
theorem Querier.joins_are_exact {store : Store} {catalog : Catalog} {name : String}
    {request : Request} {query : Query} {docs : List Document} (hstore : store.WellKeyed)
    (hquery : (store.querier catalog name).compile request = .ok query)
    (hdocs : Document.AllWellKeyed docs)
    (htargets : ∀ join ∈ query.joins, ∃ target, store.find? join.collection = some target ∧
      target.NamedByIds)
    (hholds : ∀ join ∈ query.joins, join.HoldsIds docs) :
    let joined := docs.map (Value.filledFields (Join.filling store query.joins) [])
    (Join.resolve store.source query.joins docs).run.run = .ok joined ∧
      (Join.resolve Recording.source query.joins docs).run.run (Recording.ofStore store) =
        (.ok joined, ⟨store, [],
          (query.joins.filter fun join => decide (join.HasIds docs)).map (Join.call docs)⟩) ∧
      ∀ join ∈ query.joins, ∀ doc, ∃ projected,
        Projection.project 0 doc join.projection = .ok projected ∧
          projected.get? "_id" = doc.get? "_id" := by
  intro joined
  obtain ⟨hapart, hwritten⟩ := Querier.planned_of_compile hquery
  have hresolve := Join.resolve_eq_filled hstore hdocs hapart hwritten htargets hholds
  refine ⟨hresolve, Join.resolve_recorded hholds hresolve, ?_⟩
  exact fun join hjoin => Join.exists_project_eq_ok (hwritten join hjoin)

/-! ### Posts with the names of people -/

namespace PostsWithNames

def people : Collection := ⟨[("name", ⟨.string, none, false⟩)], [], .standard⟩

def posts : Collection :=
  ⟨[("author", ⟨.number, some "people", false⟩), ("friends", ⟨.number, some "people", true⟩)], [],
    { Options.standard with defaultSort := none }⟩

def catalog : Catalog := [("people", people), ("posts", posts)]

def named : Selection := [("author.name", .marker included), ("friends.name", .marker included)]

def joined (field : String) (many : Bool) : Join :=
  ⟨field, "people", [("name", .marker included)], many⟩

def joins : List Join := [joined "author" false, joined "friends" true]

def project : Document := [("author", .int32 included), ("friends", .int32 included)]

/-- What the request for the names of authors and friends means. -/
def query : Query where
  collection := "posts"
  filter := .empty
  order := ⟨[], []⟩
  selection := some named
  project := some project
  joins := joins
  unwind := none
  page := 1
  limit := 20
  textSearch := false

def ann : ObjectId := ⟨1⟩

def ben : ObjectId := ⟨2⟩

def nobody : ObjectId := ⟨9⟩

def person (id : ObjectId) (name : String) : Document :=
  [("_id", .objectId id), ("name", .string name), ("age", .int32 30)]

def target : StoredCollection := ⟨[person ann "Ann", person ben "Ben"], []⟩

def store : Store := ⟨[("people", target)], ⟨0⟩, 0⟩

def request : Request := [("$fields", "author.name friends.name")]

theorem compile_eq : (store.querier catalog "posts").compile request = .ok query := by
  let compiler : Compiler := ⟨catalog, "posts", posts, []⟩
  have hnew : Compiler.new catalog "posts" = .ok compiler := rfl
  have htokens : tokens "author.name friends.name" =
      .ok [.key "author.name", .key "friends.name"] := by decide +kernel
  have hread : Selection.read included "author.name friends.name" = .ok named := by
    rw [Selection.read, htokens]
    rfl
  have hwithout : named.without [] = named := by rfl
  have hoptions : ∀ option ∈ [("$fields", some "author.name friends.name"), ("$q", none),
      ("$getAllFields", none), ("$page", none), ("$limit", none), ("$sort", none),
      ("$search", none), ("$unwind", none)],
        Compiler.option? request option.1 = option.2 := by decide +kernel
  simp only [List.forall_mem_cons] at hoptions
  obtain ⟨hfields, hnone⟩ := hoptions
  have hstandard : compiler.collection.options = { Options.standard with defaultSort := none } := rfl
  have hselection : compiler.selectionOf request = .ok (some named) := by
    unfold Compiler.selectionOf Compiler.wantsAllFields
    simp only [hstandard, Options.standard, hfields, hnone, Option.some_or, readOrError, hread]
    rw [← hwithout]
    rfl
  have hjoins : compiler.planJoins named = .ok joins := by rfl
  have hproject : compiler.projectDocument (some named) joins false = some project := by
    have hcanonical : named.canonical = [("author", .group [("name", .marker included)]),
        ("friends", .group [("name", .marker included)])] := by rfl
    have hmarked : replacePath (replacePath named.canonical ["author"] (.marker included))
        ["friends"] (.marker included) =
          [("author", .marker included), ("friends", .marker included)] := by
      rw [hcanonical]
      rfl
    have hauthor : Path.ofText "author" = ["author"] := Path.ofText_of_plain (by decide)
    have hfriends : Path.ofText "friends" = ["friends"] := Path.ofText_of_plain (by decide)
    simp only [Compiler.projectDocument, Compiler.projectFields, joins, joined, List.foldl_cons,
      List.foldl_nil, hauthor, hfriends, hmarked]
    rfl
  have hfilter : request.foldl compiler.addPair .empty = .empty := by rfl
  rw [Querier.compile, hnew, Outcome.ok_bind, Compiler.compile, hselection, Outcome.ok_bind]
  simp only [hstandard, Options.standard, hnone, Compiler.filterOf, Compiler.unwindOf,
    Compiler.positive?, hfilter, hjoins]
  rw [Outcome.ok_bind, query, ← hproject]
  rfl

def post : Document :=
  [("_id", .int32 7), ("author", .objectId ann),
    ("friends", .array [.objectId ben, .objectId nobody]), ("n", .null)]

theorem documentFor_eq (field : String) (many : Bool) (id : ObjectId) :
    Join.documentFor store (joined field many) (.objectId id) =
      (target.documentWith (.objectId id)).bind fun doc =>
        (Projection.project 0 doc [("name", .int32 included)]).toOption := rfl

theorem project_person (id : ObjectId) (name : String) :
    Projection.project 0 (person id name) [("name", .int32 included)] =
      .ok [("_id", .objectId id), ("name", .string name)] := by rfl

theorem documentFor_ann (field : String) (many : Bool) :
    Join.documentFor store (joined field many) (.objectId ann) =
      some [("_id", .objectId ann), ("name", .string "Ann")] := by
  have hfound : target.documentWith (.objectId ann) = some (person ann "Ann") := by rfl
  rw [documentFor_eq, hfound, Option.bind_some, project_person]
  rfl

theorem documentFor_ben (field : String) (many : Bool) :
    Join.documentFor store (joined field many) (.objectId ben) =
      some [("_id", .objectId ben), ("name", .string "Ben")] := by
  have hfound : target.documentWith (.objectId ben) = some (person ben "Ben") := by rfl
  rw [documentFor_eq, hfound, Option.bind_some, project_person]
  rfl

theorem documentFor_nobody (field : String) (many : Bool) :
    Join.documentFor store (joined field many) (.objectId nobody) = none := by
  have hfound : target.documentWith (.objectId nobody) = none := by rfl
  rw [documentFor_eq, hfound]
  rfl

theorem exists_person {doc : Document} (h : doc ∈ target.docs) :
    ∃ id name, doc = person id name := by
  rcases List.mem_pair.1 h with rfl | rfl
  · exact ⟨ann, "Ann", rfl⟩
  · exact ⟨ben, "Ben", rfl⟩

theorem namedByIds : target.NamedByIds := by
  intro doc hdoc own hown
  obtain ⟨id, name, rfl⟩ := exists_person hdoc
  obtain rfl := Option.some.inj hown
  exact .objectId _

theorem wellKeyed_store : store.WellKeyed := by
  intro name c hc doc hdoc
  obtain rfl : c = target := by
    obtain ⟨_, h⟩ := List.mem_singleton.1 (Keyed.mem_of_lookup hc)
    rfl
  obtain ⟨id, name, rfl⟩ := exists_person hdoc
  rw [Document.wellKeyed_iff]
  simp [person, Keyed.Distinct, Keyed.keys, Value.WellKeyed]

/-- The names are put in the place of ids; nobody has the last one. -/
theorem names_are_joined : (Join.resolve store.source query.joins [post]).run.run = .ok
    [[("_id", .int32 7), ("author", .document [("_id", .objectId ann), ("name", .string "Ann")]),
      ("friends", .array [.document [("_id", .objectId ben), ("name", .string "Ben")]]),
      ("n", .null)]] := by
  have hauthor : Path.ofText "author" = ["author"] := Path.ofText_of_plain (by decide)
  have hfriends : Path.ofText "friends" = ["friends"] := Path.ofText_of_plain (by decide)
  have hdocs : Document.AllWellKeyed [post] := by
    rw [Document.AllWellKeyed, List.forall_mem_singleton, Document.wellKeyed_iff]
    simp [post, Keyed.Distinct, Keyed.keys, Value.WellKeyed, Value.WellKeyedItems]
  have hholds : ∀ join ∈ query.joins, join.HoldsIds [post] := by
    simp only [query, joins, joined, List.forall_mem_cons, Join.HoldsIds, hauthor, hfriends]
    refine ⟨⟨?_, by simp⟩, ⟨?_, by simp⟩, by simp⟩
    · intro value hvalue
      obtain rfl := List.mem_singleton.1 hvalue
      exact .inl (.objectId ann)
    · have hfound : Path.candidates post ["friends"] =
          [.array [.objectId ben, .objectId nobody], .objectId ben, .objectId nobody] := rfl
      intro value hvalue
      rw [hfound] at hvalue
      simp only [List.mem_cons, List.not_mem_nil, or_false] at hvalue
      rcases hvalue with rfl | rfl | rfl
      · exact .inr (.inr ⟨_, rfl, by simp [Value.IsId.objectId]⟩)
      · exact .inl (.objectId ben)
      · exact .inl (.objectId nobody)
  have htargets : ∀ join ∈ query.joins, ∃ target, store.find? join.collection = some target ∧
      target.NamedByIds := by
    simp only [query, joins, List.forall_mem_cons]
    exact ⟨⟨_, rfl, namedByIds⟩, ⟨_, rfl, namedByIds⟩, by simp⟩
  obtain ⟨hresolve, -⟩ :=
    Querier.joins_are_exact wellKeyed_store compile_eq hdocs htargets hholds
  have hfill : ∀ path, Join.filling store query.joins path =
      [(["author"], (joined "author" false).replaced store),
        (["friends"], (joined "friends" true).replaced store)].lookup path := by
    rw [← hauthor, ← hfriends]
    exact fun _ => rfl
  have hone : (joined "author" false).replaced store (.objectId ann) =
      some (.document [("_id", .objectId ann), ("name", .string "Ann")]) :=
    congrArg (Option.map Value.document) (documentFor_ann "author" false)
  have hmany : (joined "friends" true).replaced store (.array [.objectId ben, .objectId nobody]) =
      some (.array [.document [("_id", .objectId ben), ("name", .string "Ben")]]) := by
    rw [Join.replaced, List.filterMap_cons, List.filterMap_cons, documentFor_ben, documentFor_nobody]
    rfl
  have hfields : ["_id", "author", "friends", "n"].map (fun key =>
      Join.filling store query.joins [key]) = [none, some ((joined "author" false).replaced store),
        some ((joined "friends" true).replaced store), none] := by
    simp only [List.map_cons, List.map_nil, hfill]
    rfl
  simp only [List.map_cons, List.map_nil, List.cons.injEq, and_true] at hfields
  obtain ⟨hkept, hfirst, hsecond, hlast⟩ := hfields
  rw [hresolve, List.map_singleton, post]
  simp only [Value.filledFields, List.nil_append, hkept, hfirst, hsecond, hlast, hone, hmany]
  rfl

end PostsWithNames

end DocQuery
