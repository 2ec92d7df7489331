import DocQuery.Answer.Joins
import DocQuery.Proofs.Query.Projected
import DocQuery.Proofs.Store.Pages

/-!
# What joins put into documents

The documents of a join are fetched with the fields that the join selects, so nothing is found in them
at a path that it omits (`Join.Omits`, `fetched_of_fetch`).  Merging replaces whatever stood in the
field of the join by fetched documents: behind the field only these are left
(`candidates_merge_behind`), and apart from it nothing changes (`candidates_merge_of_apart`).  A run
over all joins keeps this (`hidden_mergeAll`), also if no id was found and nothing is fetched
(`hidden_resolve`).
-/

namespace DocQuery

open Selection

/-- In none of the documents anything is found at a path. -/
def Path.Hidden (docs : List Document) (path : Path) : Prop :=
  ∀ doc ∈ docs, candidates doc path = []

/-- What is hidden depends on what is found in each document, in any order. -/
theorem Path.hidden_congr {docs others : List Document} {path : Path}
    (h : (docs.map (candidates · path)).Perm (others.map (candidates · path))) :
    Hidden docs path ↔ Hidden others path := by
  have hmap : ∀ docs : List Document, Hidden docs path ↔
      ∀ found ∈ docs.map (candidates · path), found = [] := by
    intro docs
    rw [List.forall_mem_map]
    rfl
  rw [hmap, hmap]
  exact forall_congr' fun found => imp_congr_left h.mem_iff

/-- In no document of a list does a key stand twice. -/
def Document.AllWellKeyed (docs : List Document) : Prop := ∀ doc ∈ docs, doc.WellKeyed

/-! ### Fetching -/

namespace Join

/-- The join asks for nothing at a path into the other documents, nor in front of it or behind it. -/
structure Omits (join : Join) (path : Path) : Prop where
  ne_nil : path ≠ []
  id : "_id" ∉ path
  apart : ∀ leaf ∈ leaves join.selection, Path.Apart leaf path

/-- The documents have distinct keys, and nothing that a join omits. -/
structure Fetched (join : Join) (docs : List Document) : Prop where
  wellKeyed : Document.AllWellKeyed docs
  hidden : ∀ path, join.Omits path → Path.Hidden docs path

variable {store : Store} {join : Join} {ids : List Value} {docs : List Document}

theorem projection_eq (join : Join) :
    join.projection = (orId join.selection.canonical).toDocument :=
  toDocument_orId (nested_canonical _)

theorem asks_projection (join : Join) :
    Projection.Asks (orId join.selection.canonical) false join.projection := by
  rw [projection_eq]
  exact Projection.asks_toDocument (nested_orId (nested_canonical _))

/-- What is fetched are documents of the store, projected one by one. -/
theorem exists_of_fetch (hstore : store.WellKeyed) {name : String} {body doc : Document}
    (hbody : body ≠ []) (h : (store.source.fetch name (some ids) body none).run.run = .ok docs)
    (hdoc : doc ∈ docs) : ∃ (original : Document) (relevance : Nat), original.WellKeyed ∧
      Projection.project relevance original body = .ok doc := by
  have hstages : Source.fetchStages (some ids) body none =
      [Stage.filter (Source.fetchBody (some ids) none), .project body].map Stage.toDocument := by
    rw [Source.fetchStages, if_neg (by simpa using hbody)]
    rfl
  have hexecute : store.execute name (Source.fetchStages (some ids) body none) = .ok docs := h
  rw [hstages, Store.execute] at hexecute
  cases hc : store.find? name with
  | none => simp [hc] at hexecute
  | some c =>
    rw [hc] at hexecute
    obtain ⟨out, hout, rfl⟩ := Outcome.map_eq_ok_iff.1 hexecute
    rw [List.map_cons, Execution.runStages_cons, Execution.runStage_filter] at hout
    obtain ⟨rows, hrows, hout⟩ := Outcome.bind_eq_ok_iff.1 hout
    rw [List.map_singleton, Execution.runStages_singleton, Execution.runStage_project] at hout
    have hkeyed : Row.AllWellKeyed rows := by
      refine Execution.wellKeyed_runMatch (List.forall_mem_map.2 ?_) hrows
      intro doc hdoc
      exact hstore name c hc doc hdoc
    obtain ⟨new, hnew, rfl⟩ := List.mem_map.1 hdoc
    obtain ⟨row, hrow, hproject⟩ := Outcome.exists_of_mapM hout hnew
    obtain ⟨projected, hprojected, rfl⟩ := Outcome.map_eq_ok_iff.1 hproject
    exact ⟨row.doc, row.relevance, hkeyed row hrow, hprojected⟩

theorem projection_ne_nil (join : Join) : join.projection ≠ [] := by
  rw [projection]
  split
  · simp [onlyId]
  · next hne => exact hne

/-- The documents of a join have only what it asks for. -/
theorem fetched_of_fetch (hstore : store.WellKeyed)
    (hwritten : Fits (written included) join.selection)
    (h : (store.source.fetch join.collection (some ids) join.projection none).run.run = .ok docs) :
    join.Fetched docs := by
  refine ⟨?_, ?_⟩
  · intro doc hdoc
    obtain ⟨original, relevance, hkeyed, hproject⟩ :=
      exists_of_fetch hstore (projection_ne_nil join) h hdoc
    exact Projection.wellKeyed_project hkeyed hproject
  · intro path hpath doc hdoc
    obtain ⟨original, relevance, -, hproject⟩ :=
      exists_of_fetch hstore (projection_ne_nil join) h hdoc
    obtain ⟨key, hkey⟩ := exists_key_orId join.selection.canonical
    have hcanonical : ∀ leaf ∈ leaves join.selection.canonical, Path.Apart leaf path := by
      intro leaf hleaf
      exact hpath.apart leaf (mem_leaves_canonical hleaf)
    have hapart := apart_orId hcanonical hpath.id hpath.ne_nil
    exact Projection.candidates_project_included join.asks_projection (fits_orId (fits_canonical hwritten))
      (nested_orId (nested_canonical _)) ⟨key, hkey, by simp⟩ hproject hapart hpath.id hpath.ne_nil
      (by simp)

/-! ### Merging -/

theorem mem_of_lastWithId {fetched : List Document} {id : Value} {doc : Document}
    (h : lastWithId fetched id = some doc) : doc ∈ fetched :=
  List.mem_reverse.1 (List.mem_of_find?_eq_some h)

/-- What is put in place of a value consists of fetched documents. -/
theorem joinedValue_cases {fetched : List Document} {value new : Value}
    (h : joinedValue fetched value = some new) :
    new = .null ∨ (∃ doc ∈ fetched, new = .document doc) ∨
      ∃ items, new = .array items ∧ ∀ item ∈ items, ∃ doc ∈ fetched, item = .document doc := by
  have hlast : ∀ id item : Value, (lastWithId fetched id).map Value.document = some item →
      ∃ doc ∈ fetched, item = .document doc := by
    intro id item hitem
    obtain ⟨doc, hdoc, rfl⟩ := Option.map_eq_some_iff.1 hitem
    exact ⟨doc, mem_of_lastWithId hdoc, rfl⟩
  unfold joinedValue at h
  split at h
  · obtain rfl := Option.some.inj h
    refine .inr (.inr ⟨_, rfl, ?_⟩)
    intro item hitem
    obtain ⟨id, -, hid⟩ := List.mem_filterMap.1 hitem
    exact hlast id item hid
  · exact .inl (Option.some.inj h).symm
  · exact .inr (.inl (hlast _ _ h))

/-- The documents that stand in a joined field are fetched ones. -/
theorem mem_of_below_joinedValue {fetched : List Document} {value new : Value} {doc : Document}
    (h : joinedValue fetched value = some new) (hdoc : .document doc ∈ Path.below new []) :
    doc ∈ fetched := by
  rcases joinedValue_cases h with rfl | ⟨other, hother, rfl⟩ | ⟨items, rfl, hitems⟩
  · simp [Path.below] at hdoc
  · rw [Path.below, List.mem_singleton] at hdoc
    · exact Value.document.inj hdoc ▸ hother
    · simp
  · rw [Path.below, List.mem_cons] at hdoc
    rcases hdoc with hdoc | hdoc
    · cases hdoc
    · obtain ⟨other, hother, heq⟩ := hitems _ hdoc
      exact Value.document.inj heq ▸ hother

theorem wellKeyed_joinedValue {fetched : List Document} {value new : Value}
    (hfetched : Document.AllWellKeyed fetched) (h : joinedValue fetched value = some new) :
    new.WellKeyed := by
  rcases joinedValue_cases h with rfl | ⟨other, hother, rfl⟩ | ⟨items, rfl, hitems⟩
  · trivial
  · exact hfetched other hother
  · rw [Value.wellKeyed_array_iff]
    intro item hitem
    obtain ⟨other, hother, rfl⟩ := hitems item hitem
    exact hfetched other hother

theorem wellKeyed_merge {fetched : List Document} {doc : Document}
    (hfetched : Document.AllWellKeyed fetched) (hdoc : doc.WellKeyed) :
    (merge join fetched doc).WellKeyed :=
  Path.wellKeyed_update _ (fun _ _ _ => wellKeyed_joinedValue hfetched) hdoc

/-- What is apart from the field of a join stays as it is. -/
theorem candidates_merge_of_apart {path : Path} (h : Path.Apart (Path.ofText join.field) path)
    (fetched : List Document) (doc : Document) :
    Path.candidates (merge join fetched doc) path = Path.candidates doc path :=
  Path.candidates_update_of_apart _ h doc

/-- Behind the field of a join nothing is found that is not found in a fetched document. -/
theorem candidates_merge_behind {fetched : List Document} {rest : Path} (hrest : rest ≠ [])
    (hfetched : Path.Hidden fetched rest) {doc : Document} (hdoc : doc.WellKeyed) :
    Path.candidates (merge join fetched doc) (Path.ofText join.field ++ rest) = [] := by
  rw [List.eq_nil_iff_forall_not_mem]
  intro found hfound
  obtain ⟨sub, hsub, hbelow⟩ :=
    Path.exists_document_of_mem_candidates (Path.ofText_ne_nil _) hrest hfound
  obtain ⟨value, new, hnew, hmem⟩ := Path.mem_candidates_update _ hdoc hsub
  rw [hfetched sub (mem_of_below_joinedValue hnew hmem)] at hbelow
  cases hbelow

/-- A join does not bring anything to a path: it is apart from it, or omits it. -/
def Clears (join : Join) (path : Path) : Prop :=
  Path.Apart (Path.ofText join.field) path ∨ ∃ rest, path = Path.ofText join.field ++ rest ∧ join.Omits rest

theorem hidden_merge {path : Path} {fetched : List Document} (hjoin : join.Clears path)
    (hfetched : join.Fetched fetched) (hdocs : Document.AllWellKeyed docs)
    (h : Path.Hidden docs path ∨ ¬ Path.Apart (Path.ofText join.field) path) :
    Path.Hidden (docs.map (merge join fetched)) path := by
  refine List.forall_mem_map.2 ?_
  intro doc hdoc
  rcases hjoin with hapart | ⟨rest, rfl, homits⟩
  · rw [candidates_merge_of_apart hapart]
    exact h.resolve_right (not_not.2 hapart) doc hdoc
  · exact candidates_merge_behind homits.ne_nil (hfetched.hidden rest homits) (hdocs doc hdoc)

theorem mergeAll_cons (found : List Document) (rest : List (Join × List Document)) :
    mergeAll ((join, found) :: rest) docs = mergeAll rest (docs.map (merge join found)) := rfl

/-- Merging all joins hides a path that no join brings anything to, if it was hidden before or one of
the joins goes through it. -/
theorem hidden_mergeAll {path : Path} {fetched : List (Join × List Document)}
    (hclears : ∀ entry ∈ fetched, entry.1.Clears path)
    (hfetched : ∀ entry ∈ fetched, entry.1.Fetched entry.2) (hdocs : Document.AllWellKeyed docs)
    (h : Path.Hidden docs path ∨
      ∃ entry ∈ fetched, ¬ Path.Apart (Path.ofText entry.1.field) path) :
    Path.Hidden (mergeAll fetched docs) path := by
  induction fetched generalizing docs with
  | nil => simpa [mergeAll] using h
  | cons entry rest ih =>
    obtain ⟨join, found⟩ := entry
    rw [List.forall_mem_cons] at hclears hfetched
    rw [mergeAll_cons]
    have hmerged : Document.AllWellKeyed (docs.map (merge join found)) := by
      refine List.forall_mem_map.2 ?_
      intro doc hdoc
      exact wellKeyed_merge hfetched.1.wellKeyed (hdocs doc hdoc)
    rw [List.exists_mem_cons_iff, ← or_assoc] at h
    exact ih hclears.2 hfetched.2 hmerged (h.imp_left (hidden_merge hclears.1 hfetched.1 hdocs))

/-- Merging all joins changes nothing at a path that is apart from all of them. -/
theorem candidates_mergeAll_of_apart {path : Path} {fetched : List (Join × List Document)}
    (h : ∀ entry ∈ fetched, Path.Apart (Path.ofText entry.1.field) path) :
    (mergeAll fetched docs).map (Path.candidates · path) = docs.map (Path.candidates · path) := by
  induction fetched generalizing docs with
  | nil => rfl
  | cons entry rest ih =>
    obtain ⟨join, found⟩ := entry
    rw [List.forall_mem_cons] at h
    rw [mergeAll_cons, ih h.2, List.map_map]
    exact List.map_congr_left fun doc _ => candidates_merge_of_apart h.1 found doc

/-! ### Resolving -/

theorem firsts_eq_nil_iff {values : List Value} : firsts [] values = [] ↔ values = [] := by
  cases values <;> simp [firsts]

/-- Nothing is found behind a field in which there are no ids. -/
theorem hidden_of_idsIn_eq_nil {field : String} (h : idsIn docs field = []) {rest : Path}
    (hrest : rest ≠ []) : Path.Hidden docs (Path.ofText field ++ rest) := by
  intro doc hdoc
  rw [List.eq_nil_iff_forall_not_mem]
  intro found hfound
  obtain ⟨sub, hsub, -⟩ := Path.exists_document_of_mem_candidates (Path.ofText_ne_nil _) hrest hfound
  rw [idsIn, firsts_eq_nil_iff, List.filter_eq_nil_iff] at h
  have hleaf : .document sub ∈ Path.leaves doc (Path.ofText field) :=
    List.mem_filter.2 ⟨hsub, rfl⟩
  exact h _ (List.mem_flatMap.2 ⟨doc, hdoc, hleaf⟩) rfl

theorem mem_pending_iff {joins : List Join} {entry : Join × List Value} :
    entry ∈ pending joins docs ↔
      entry.1 ∈ joins ∧ idsIn docs entry.1.field = entry.2 ∧ entry.2 ≠ [] := by
  rw [pending, List.mem_filterMap]
  constructor
  · rintro ⟨join, hjoin, h⟩
    split at h
    · cases h
    · next hne =>
      obtain rfl := Option.some.inj h
      exact ⟨hjoin, rfl, hne⟩
  · rintro ⟨hjoin, hids, hne⟩
    refine ⟨entry.1, hjoin, ?_⟩
    split
    · next hnil => exact absurd (hids.symm.trans hnil) hne
    · rw [hids]

/-- The joins are fetched one after the other. -/
theorem fetchAll_eq_ok {entries : List (Join × List Value)} {fetched : List (Join × List Document)}
    (h : (fetchAll store.source entries).run.run = .ok fetched) :
    fetched.map Prod.fst = entries.map Prod.fst ∧ ∀ entry ∈ fetched, ∃ ids, (store.source.fetch
      entry.1.collection (some ids) entry.1.projection none).run.run = .ok entry.2 := by
  induction entries generalizing fetched with
  | nil =>
    obtain rfl := Outcome.run_pure_eq_ok_iff.1 h
    simp
  | cons entry rest ih =>
    obtain ⟨join, ids⟩ := entry
    rw [fetchAll] at h
    obtain ⟨docs, hdocs, h⟩ := Outcome.run_bind_eq_ok_iff.1 h
    obtain ⟨others, hothers, h⟩ := Outcome.run_bind_eq_ok_iff.1 h
    obtain rfl := Outcome.run_pure_eq_ok_iff.1 h
    obtain ⟨hjoins, hfetch⟩ := ih hothers
    exact ⟨by simp [hjoins], List.forall_mem_cons.2 ⟨⟨ids, hdocs⟩, hfetch⟩⟩

/-- The joins that have ids in a batch are merged into it, each one with what it fetched. -/
theorem resolve_eq_ok {joins : List Join} {joined : List Document} (hstore : store.WellKeyed)
    (hwritten : ∀ join ∈ joins, Fits (written included) join.selection)
    (h : (resolve store.source joins docs).run.run = .ok joined) :
    ∃ fetched, joined = mergeAll fetched docs ∧
      (∀ join, (∃ found, (join, found) ∈ fetched) ↔ join ∈ joins ∧ idsIn docs join.field ≠ []) ∧
      ∀ entry ∈ fetched, entry.1.Fetched entry.2 := by
  obtain ⟨fetched, hfetched, h⟩ := Outcome.run_bind_eq_ok_iff.1 h
  obtain ⟨hjoins, hfetch⟩ := fetchAll_eq_ok hfetched
  have hmem : ∀ join, (∃ found, (join, found) ∈ fetched) ↔
      join ∈ joins ∧ idsIn docs join.field ≠ [] := by
    intro join
    have hmap : (∃ found, (join, found) ∈ fetched) ↔ join ∈ (pending joins docs).map Prod.fst := by
      rw [← hjoins]
      simp
    rw [hmap, List.mem_map]
    constructor
    · rintro ⟨entry, hentry, rfl⟩
      obtain ⟨hjoin, hids, hne⟩ := mem_pending_iff.1 hentry
      exact ⟨hjoin, hids ▸ hne⟩
    · rintro ⟨hjoin, hne⟩
      exact ⟨(join, _), mem_pending_iff.2 ⟨hjoin, rfl, hne⟩, rfl⟩
  refine ⟨fetched, (Outcome.run_pure_eq_ok_iff.1 h).symm, hmem, ?_⟩
  intro entry hentry
  obtain ⟨ids, hids⟩ := hfetch entry hentry
  have hjoin : entry.1 ∈ joins := ((hmem entry.1).1 ⟨entry.2, hentry⟩).1
  exact fetched_of_fetch hstore (hwritten _ hjoin) hids

variable {joins : List Join} {joined : List Document}

/-- A batch with its joins hides a path that no join brings anything to, if the batch hides it or one of
the joins goes through it. -/
theorem hidden_resolve (hstore : store.WellKeyed)
    (hwritten : ∀ join ∈ joins, Fits (written included) join.selection)
    (hdocs : Document.AllWellKeyed docs)
    (hrun : (resolve store.source joins docs).run.run = .ok joined) {path : Path}
    (hclears : ∀ join ∈ joins, join.Clears path)
    (h : Path.Hidden docs path ∨ ∃ join ∈ joins, ¬ Path.Apart (Path.ofText join.field) path) :
    Path.Hidden joined path := by
  obtain ⟨fetched, rfl, hjoins, hfetched⟩ := resolve_eq_ok hstore hwritten hrun
  have hcleared : ∀ entry ∈ fetched, entry.1.Clears path := by
    intro entry hentry
    exact hclears _ ((hjoins entry.1).1 ⟨entry.2, hentry⟩).1
  refine hidden_mergeAll hcleared hfetched hdocs ?_
  rcases h with h | ⟨join, hjoin, hbehind⟩
  · exact .inl h
  · -- a join without ids is not fetched, but then nothing stands behind its field
    by_cases hids : idsIn docs join.field = []
    · obtain ⟨rest, rfl, homits⟩ := (hclears join hjoin).resolve_left hbehind
      exact .inl (hidden_of_idsIn_eq_nil hids homits.ne_nil)
    · obtain ⟨found, hfound⟩ := (hjoins join).2 ⟨hjoin, hids⟩
      exact .inr ⟨_, hfound, hbehind⟩

/-- Joins change nothing at a path that is apart from all of them. -/
theorem candidates_resolve_of_apart (hstore : store.WellKeyed)
    (hwritten : ∀ join ∈ joins, Fits (written included) join.selection)
    (hrun : (resolve store.source joins docs).run.run = .ok joined) {path : Path}
    (h : ∀ join ∈ joins, Path.Apart (Path.ofText join.field) path) :
    joined.map (Path.candidates · path) = docs.map (Path.candidates · path) := by
  obtain ⟨fetched, rfl, hjoins, -⟩ := resolve_eq_ok hstore hwritten hrun
  exact candidates_mergeAll_of_apart fun entry hentry =>
    h _ ((hjoins entry.1).1 ⟨entry.2, hentry⟩).1

end Join

end DocQuery
