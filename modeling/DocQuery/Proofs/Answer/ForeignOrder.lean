import DocQuery.Proofs.Answer.Behind
import DocQuery.Proofs.Answer.Failures

/-!
# The order behind references

Foreign sort keys are applied to the joined documents of a page.  So the page is sorted stably by the values
that are meant, for those keys that the joins bring (`Querier.foreign_order_of_find`).  The selected fields
decide which these are; a key that is not among them is without effect.
-/

namespace DocQuery

open Selection

/-! ### The values that a page is sorted by -/

/-- The rows of a page as documents, each with the joined document that it becomes. -/
def Query.pairs (query : Query) (store : Store) (rows : List Row) (found : List Document) :
    List (Document × Document) :=
  (rows.zip found).map fun pair => (pair.1.doc, query.joinedBy store found pair.2)

namespace Query.Fetched

variable {store : Store} {c : Compiler} {request : Request} {query : Query} {rows : List Row}
  {found : List Document}

theorem fst_pairs (h : query.Fetched store rows found) :
    (query.pairs store rows found).map Prod.fst = rows.map Row.doc := by
  have hzip : (rows.zip found).map Prod.fst = rows := List.map_fst_zip h.projects.length_eq.le
  calc (query.pairs store rows found).map Prod.fst
      = ((rows.zip found).map Prod.fst).map Row.doc := by rw [Query.pairs, List.map_map, List.map_map]; rfl
    _ = rows.map Row.doc := by rw [hzip]

theorem snd_pairs (h : query.Fetched store rows found) :
    (query.pairs store rows found).map Prod.snd = found.map (query.joinedBy store found) := by
  have hzip : (rows.zip found).map Prod.snd = found := List.map_snd_zip h.projects.length_eq.ge
  calc (query.pairs store rows found).map Prod.snd
      = ((rows.zip found).map Prod.snd).map (query.joinedBy store found) := by
        rw [Query.pairs, List.map_map, List.map_map]; rfl
    _ = found.map (query.joinedBy store found) := by rw [hzip]

/-- Sorting the joined documents by foreign keys is sorting by the values in the stored documents, if only
the keys count that the joins bring. -/
theorem sortDocuments_pairs (h : query.Fetched store rows found) (hstore : store.WellKeyed)
    (hmeans : c.Means request query)
    (hprotected : c.collection.protectedSelection = .ok c.protectedFields) {keys : SortKeys}
    (hforeign : ∀ key ∈ keys, c.collection.isForeign key.1)
    (hrefers : ∀ key ∈ keys, store.Refers c.collection (rows.map Row.doc) key.1)
    (hscore : query.textSearch = true → ∀ key ∈ keys, (Path.ofText key.1).head? ≠ some scoreField)
    {brought : String → Bool}
    (hbrought : ∀ path, brought path = true ↔ query.Brings c.collection path) :
    ∃ sorted, StablySorted (SortKeys.compareValues (keys.filter fun key => brought key.1)
        fun path pair => store.valueBehind c.collection path pair.1)
          (query.pairs store rows found) sorted ∧
      sortDocuments keys ((query.pairs store rows found).map Prod.snd) = .ok (sorted.map Prod.snd) := by
  have hvalue : ∀ key ∈ keys, ∀ pair ∈ query.pairs store rows found,
      Document.valueAt key.1 pair.2 =
        if brought key.1 then store.valueBehind c.collection key.1 pair.1 else .null := by
    intro key hkey pair hpair
    obtain ⟨⟨row, doc⟩, hmem, rfl⟩ := List.mem_map.1 hpair
    obtain ⟨⟨field, name, rest⟩, hpath⟩ :=
      Option.isSome_iff_exists.1 (Bool.and_eq_true_iff.1 (hforeign key hkey)).2
    have hjoined := h.valueAt_joined hstore hmeans hprotected hpath (hrefers key hkey)
      (fun hsearch => hscore hsearch key hkey) hmem
    simp only [← hbrought] at hjoined
    exact hjoined
  have horders : OrdersOn (SortKeys.compareValues (keys.filter fun key => brought key.1)
      fun path pair => store.valueBehind c.collection path pair.1) (query.pairs store rows found) := by
    refine SortKeys.ordersOn_compareValues fun key hkey pair hpair => ?_
    have hmem := List.mem_map_of_mem (f := Prod.fst) hpair
    rw [h.fst_pairs] at hmem
    exact (hrefers key (List.mem_of_mem_filter hkey)).sortable _ hmem
  have hcompare : ∀ a ∈ query.pairs store rows found, ∀ b ∈ query.pairs store rows found,
      SortKeys.compareValues keys Document.valueAt a.2 b.2 =
        SortKeys.compareValues (keys.filter fun key => brought key.1)
          (fun path pair => store.valueBehind c.collection path pair.1) a b := by
    intro a ha b hb
    let value (path : String) (pair : Document × Document) : Value :=
      if brought path then store.valueBehind c.collection path pair.1 else .null
    calc SortKeys.compareValues keys Document.valueAt a.2 b.2
        = SortKeys.compareValues keys value a b :=
          SortKeys.compareValues_congr fun key hkey => ⟨hvalue key hkey a ha, hvalue key hkey b hb⟩
      _ = SortKeys.compareValues (keys.filter fun key => brought key.1) value a b :=
          (SortKeys.compareValues_filter fun key _ hnot => by simp [value, hnot]).symm
      _ = _ := SortKeys.compareValues_congr fun key hkey => by
          have hkey : brought key.1 = true := (List.mem_filter.1 hkey).2
          simp [value, hkey]
  refine ⟨_, stablySorted_insertionSort horders, ?_⟩
  rw [sortDocuments_eq, stableSort_map hcompare, horders.stableSort_eq]
  rfl

end Query.Fetched

/-! ### The order of a page -/

open Classical in
/-- **The order behind references.**  If the references of a page are ids, and the values behind them can be
sorted by, then the documents of the page are those of the pipeline, joined, and sorted stably by the
foreign keys of the request: lexicographically, in the directions that are asked for, by the values in the
stored documents that are referred to.  A key counts only if the joins of the query bring what it is about,
which depends on the selected fields; one that they do not bring leaves the order as it was. -/
theorem Querier.foreign_order_of_find {store : Store} {catalog : Catalog} {name : String}
    {collection : Collection} {request : Request} {query : Query}
    {preStages bare docs : List Document} (hstore : store.WellKeyed)
    (hpre : ∀ stage ∈ preStages, stage.WellKeyed) (hcollection : catalog.find? name = some collection)
    (hquery : (store.querier catalog name).compile request = .ok query)
    (hbare : query.bare.Finds store preStages bare)
    (hrefers : ∀ key ∈ query.order.afterJoins, store.Refers collection bare key.1)
    (hscore : query.textSearch = true → ∀ key ∈ query.order.afterJoins,
      (Path.ofText key.1).head? ≠ some scoreField)
    (hdocs : ((store.querier catalog name).find request preStages).run.run = .ok docs) :
    ∃ c keys found pairs sorted, Compiler.new catalog name = .ok c ∧ c.keysOf request = .ok keys ∧
      query.Finds store preStages found ∧
      (Join.resolve store.source query.joins found).run.run = .ok (pairs.map Prod.snd) ∧
      pairs.map Prod.fst = bare ∧
      StablySorted (SortKeys.compareValues (keys.filter fun key =>
          collection.isForeign key.1 && decide (query.Brings collection key.1))
        fun path pair => store.valueBehind collection path pair.1) pairs sorted ∧
      docs = sorted.map Prod.snd := by
  obtain ⟨c, hc, hcompile⟩ := Outcome.bind_eq_ok_iff.1 hquery
  obtain ⟨-, -, hagain, hprotected⟩ := Compiler.new_eq_ok_iff.1 hc
  obtain rfl : collection = c.collection := Option.some.inj (hcollection.symm.trans hagain)
  have hmeans := Compiler.means_of_compile hcompile
  obtain ⟨keys, hkeys, hafter⟩ := Compiler.afterJoins_of_compile hcompile
  -- the steps of the answer
  obtain ⟨again, resolved, hprepare, found, hrun, hfinish⟩ := find_eq_ok_iff.1 hdocs
  obtain ⟨hagain, hresolved⟩ := prepare_eq_ok_iff.1 hprepare
  obtain rfl : query = again := Except.ok.inj (hquery.symm.trans hagain)
  obtain ⟨joined, hjoined, hdocs⟩ := finish_eq_ok_iff.1 hfinish
  obtain ⟨rows, hkeyed, hrows, hprojected⟩ := Store.execute_find_eq_ok hstore hpre hrun
  obtain ⟨others, hothers, hbare⟩ := hbare
  obtain rfl : resolved = others := Except.ok.inj (hresolved.symm.trans hothers)
  obtain rfl : bare = rows.map Row.doc := Except.ok.inj (hbare.symm.trans hrows)
  obtain ⟨hanswers, hmap⟩ := (Join.resolve_eq_ok_iff store found).1 hjoined
  obtain ⟨hapart, hwritten⟩ := planned_of_compile hquery
  have hfetched : query.Fetched store rows found := by
    refine ⟨hkeyed, ?_, hapart, hwritten, hanswers⟩
    unfold Query.Projects
    cases hproject : query.project with
    | none =>
      rw [hproject] at hprojected
      obtain rfl : found = rows.map Row.doc := hprojected
      exact List.forall₂_map_right_iff.2 (List.forall₂_same.2 fun _ _ => rfl)
    | some body =>
      rw [hproject] at hprojected
      exact hprojected
  have hforeign : ∀ key ∈ query.order.afterJoins, c.collection.isForeign key.1 = true := by
    rw [hafter]
    exact fun key hkey => (List.mem_filter.1 hkey).2
  obtain ⟨sorted, hsorted, hmapped⟩ := hfetched.sortDocuments_pairs hstore hmeans hprotected hforeign
    hrefers hscore fun path => decide_eq_true_iff (p := query.Brings c.collection path)
  have hpairs : (query.pairs store rows found).map Prod.snd = joined :=
    hfetched.snd_pairs.trans hmap.symm
  rw [hpairs, hdocs] at hmapped
  refine ⟨c, keys, found, _, sorted, hc, hkeys, ⟨resolved, hresolved, hrun⟩, ?_, hfetched.fst_pairs,
    ?_, Except.ok.inj hmapped⟩
  · rw [hpairs]
    exact hjoined
  · simpa only [hafter, List.filter_filter, Bool.and_comm] using hsorted

/-! ### Posts by the names of their authors -/

namespace PostsByAuthor

open PostsWithNames

def post (n : Int32) (author : ObjectId) : Document := [("_id", .int32 n), ("author", .objectId author)]

def store : Store := ⟨[("people", target), ("posts", ⟨[post 1 ben, post 2 ann], []⟩)], ⟨0⟩, 0⟩

def request (fields : String) : Request := [("$fields", fields), ("$sort", "author.name")]

def compiler : Compiler := ⟨catalog, "posts", posts, []⟩

def keys : SortKeys := [("author.name", .ascending)]

/-- What a request for fields means that is sorted by the names of the authors. -/
def query (field : String) (joins : List Join) (project : Document) : Query where
  collection := "posts"
  filter := .empty
  order := ⟨[], keys⟩
  selection := some [(field, .marker included)]
  project := some project
  joins := joins
  unwind := none
  page := 1
  limit := 20
  textSearch := false

theorem foreign?_eq : posts.foreign? "author.name" = some ("author", "people", "name") := by
  decide +kernel

section Compile

variable {fields : String} (hoptions : ∀ option ∈ [("$fields", some fields), ("$q", none),
      ("$sort", some "author.name"), ("$getAllFields", none), ("$page", none), ("$limit", none),
      ("$search", none), ("$unwind", none)], Compiler.option? (request fields) option.1 = option.2)
include hoptions

theorem keysOf_eq : compiler.keysOf (request fields) = .ok keys := by
  have hsort := hoptions ("$sort", some "author.name") (by simp)
  have hread : SortKeys.read "author.name" = .ok keys := by decide +kernel
  have hkey : compiler.collection.options.sortKey = "$sort" := rfl
  rw [Compiler.keysOf, hkey, hsort, SortOrder.effectiveKeys, hread]
  rfl

theorem compile_eq {joins : List Join} {project : Document} (htokens : tokens fields = .ok [.key fields])
    (hjoins : compiler.planJoins [(fields, .marker included)] = .ok joins)
    (hproject : compiler.projectDocument (some [(fields, .marker included)]) joins false = some project) :
    (store.querier catalog "posts").compile (request fields) = .ok (query fields joins project) := by
  simp only [List.forall_mem_cons] at hoptions
  obtain ⟨hfields, hsearch, hsort, hall, hnone⟩ := hoptions
  have hnew : Compiler.new catalog "posts" = .ok compiler := rfl
  have hstandard : compiler.collection.options = { Options.standard with defaultSort := none } := rfl
  have hread : Selection.read included fields = .ok [(fields, .marker included)] := by
    rw [Selection.read, htokens]
    rfl
  have hwithout : Selection.without [(fields, .marker included)] [] = [(fields, .marker included)] := by
    obtain ⟨key, rest, hpath⟩ := List.exists_cons_of_ne_nil (Path.ofText_ne_nil fields)
    rw [without, prunedEntries, hpath]
    rfl
  have hselection : compiler.selectionOf (request fields) = .ok (some [(fields, .marker included)]) := by
    unfold Compiler.selectionOf Compiler.wantsAllFields
    simp only [hstandard, Options.standard, hfields, hall, Option.some_or, readOrError, hread]
    show Except.ok (some (without [(fields, .marker included)] [])) = _
    rw [hwithout]
  have horder : SortOrder.compile (some "author.name") compiler.collection false = .ok ⟨[], keys⟩ := by
    have hread : SortKeys.read "author.name" = .ok keys := by decide +kernel
    have hadded : SortOrder.addKey posts false ⟨[], []⟩ ("author.name", .ascending) = ⟨[], keys⟩ := by
      have hrecognizes : posts.recognizes "author.name" = false := by decide +kernel
      simp [SortOrder.addKey, hrecognizes, foreign?_eq, keys]
    rw [SortOrder.compile, SortOrder.effectiveKeys, hread]
    exact congrArg Except.ok hadded
  have hfilter : (request fields).foldl compiler.addPair .empty = .empty := by rfl
  rw [Querier.compile, hnew, Outcome.ok_bind, Compiler.compile, hselection, Outcome.ok_bind]
  simp only [hstandard, Options.standard, hsearch, hsort, hnone, Compiler.filterOf, Compiler.unwindOf,
    Compiler.positive?, hfilter, hjoins, Option.isSome_none, Bool.false_and, horder]
  rw [query, ← hproject]
  rfl

end Compile

def idQuery : Query := query "_id" [] [("_id", .int32 1)]

def nameQuery : Query := query "author.name" [joined "author" false] [("author", .int32 1)]

theorem compile_id : (store.querier catalog "posts").compile (request "_id") = .ok idQuery :=
  compile_eq (by decide +kernel) (by decide +kernel) (by rfl) (by rfl)

theorem compile_name : (store.querier catalog "posts").compile (request "author.name") = .ok nameQuery := by
  have hcanonical : canonical [("author.name", .marker included)] =
      [("author", .group [("name", .marker included)])] := by rfl
  have hauthor : Path.ofText "author" = ["author"] := Path.ofText_of_plain (by decide)
  have hmarked : replacePath (canonical [("author.name", .marker included)]) ["author"]
      (.marker included) = [("author", .marker included)] := by
    rw [hcanonical]
    rfl
  refine compile_eq (by decide +kernel) (by decide +kernel) (by rfl) ?_
  simp only [Compiler.projectDocument, Compiler.projectFields, joined, List.foldl_cons,
    List.foldl_nil, hauthor, hmarked]
  rfl

theorem wellKeyed_post (n : Int32) (author : ObjectId) : (post n author).WellKeyed := by
  rw [Document.wellKeyed_iff]
  simp [post, Keyed.Distinct, Keyed.keys, Value.WellKeyed]

theorem wellKeyed_store : store.WellKeyed := by
  intro name c hc doc hdoc
  rcases List.mem_pair.1 (Keyed.mem_of_lookup hc) with hpeople | hposts
  · obtain ⟨rfl, rfl⟩ := Prod.mk.inj hpeople
    exact PostsWithNames.wellKeyed_store "people" target rfl doc hdoc
  · obtain ⟨rfl, rfl⟩ := Prod.mk.inj hposts
    rcases List.mem_pair.1 hdoc with rfl | rfl <;> exact wellKeyed_post _ _

theorem candidates_author {doc : Document} (h : doc ∈ [post 1 ben, post 2 ann]) {value : Value}
    (hvalue : value ∈ Path.candidates doc (Path.ofText "author")) : value.IsId := by
  rw [Path.ofText_of_plain (by decide)] at hvalue
  rcases List.mem_pair.1 h with rfl | rfl
  all_goals
    obtain rfl := List.mem_singleton.1 hvalue
    exact .objectId _

theorem valueBehind_eq : store.valueBehind posts "author.name" (post 1 ben) = .string "Ben" ∧
    store.valueBehind posts "author.name" (post 2 ann) = .string "Ann" := by
  simp only [store.valueBehind_of_foreign foreign?_eq]
  constructor <;> rfl

theorem refers : store.Refers posts [post 1 ben, post 2 ann] "author.name" where
  named field name rest h target htarget := by
    rw [foreign?_eq] at h
    cases h
    cases htarget
    exact namedByIds
  holds field name rest h doc hdoc value hvalue := by
    rw [foreign?_eq] at h
    cases h
    exact .inl (candidates_author hdoc hvalue)
  sortable := by
    obtain ⟨hben, hann⟩ := valueBehind_eq
    simp only [List.forall_mem_cons, hben, hann]
    exact ⟨.string _, .string _, by simp⟩

def named (n : Int32) (id : ObjectId) (name : String) : Document :=
  [("_id", .int32 n), ("author", .document [("_id", .objectId id), ("name", .string name)])]

theorem resolve_eq : (Join.resolve store.source nameQuery.joins [post 1 ben, post 2 ann]).run.run =
    .ok [named 1 ben "Ben", named 2 ann "Ann"] := by
  have hauthor : Path.ofText "author" = ["author"] := Path.ofText_of_plain (by decide)
  have hdocs : Document.AllWellKeyed [post 1 ben, post 2 ann] := fun doc hdoc => by
    rcases List.mem_pair.1 hdoc with rfl | rfl <;> exact wellKeyed_post _ _
  have htargets : ∀ join ∈ nameQuery.joins, ∃ target, store.find? join.collection = some target ∧
      target.NamedByIds := List.forall_mem_singleton.2 ⟨target, rfl, namedByIds⟩
  have hholds : ∀ join ∈ nameQuery.joins, join.HoldsIds [post 1 ben, post 2 ann] :=
    List.forall_mem_singleton.2 fun doc hdoc value hvalue => .inl (candidates_author hdoc hvalue)
  obtain ⟨hapart, hwritten⟩ := Querier.planned_of_compile compile_name
  have hresolve := Join.resolve_eq_filled wellKeyed_store hdocs hapart hwritten htargets hholds
  have hfill : ∀ path, Join.filling store nameQuery.joins path =
      [(["author"], (joined "author" false).replaced store)].lookup path := by
    rw [← hauthor]
    exact fun _ => rfl
  have hfields : ["_id", "author"].map (fun key => Join.filling store nameQuery.joins [key]) =
      [none, some ((joined "author" false).replaced store)] := by
    simp only [List.map_cons, List.map_nil, hfill]
    rfl
  simp only [List.map_cons, List.map_nil, List.cons.injEq, and_true] at hfields
  have hben : (joined "author" false).replaced store (.objectId ben) =
      some (.document [("_id", .objectId ben), ("name", .string "Ben")]) :=
    congrArg (Option.map Value.document) (documentFor_ben "author" false)
  have hann : (joined "author" false).replaced store (.objectId ann) =
      some (.document [("_id", .objectId ann), ("name", .string "Ann")]) :=
    congrArg (Option.map Value.document) (documentFor_ann "author" false)
  rw [hresolve]
  simp only [List.map_cons, List.map_nil, post, Value.filledFields, List.nil_append, hfields.1,
    hfields.2, hben, hann]
  rfl

/-- With the names among the selected fields the posts come in the order of the names. -/
theorem sorted_by_selected_names :
    ((store.querier catalog "posts").find (request "author.name") []).run.run =
        .ok [named 2 ann "Ann", named 1 ben "Ben"] ∧
      nameQuery.Brings posts "author.name" ∧
      ∃ pairs sorted : List (Document × Document), pairs.map Prod.fst = [post 1 ben, post 2 ann] ∧
        StablySorted (keys.compareValues fun path pair => store.valueBehind posts path pair.1)
          pairs sorted ∧
        sorted.map Prod.snd = [named 2 ann "Ann", named 1 ben "Ben"] := by
  have hprepare : ((store.querier catalog "posts").prepare (request "author.name")).run.run =
      .ok (nameQuery, []) := Querier.prepare_eq_ok_iff.2 ⟨compile_name, rfl⟩
  have hsort : sortDocuments keys [named 1 ben "Ben", named 2 ann "Ann"] =
      .ok [named 2 ann "Ann", named 1 ben "Ben"] := by rfl
  have hfind : ((store.querier catalog "posts").find (request "author.name") []).run.run =
      .ok [named 2 ann "Ann", named 1 ben "Ben"] := by
    refine Querier.find_eq_ok_iff.2 ⟨nameQuery, [], hprepare, [post 1 ben, post 2 ann], rfl, ?_⟩
    exact Querier.finish_eq_ok_iff.2 ⟨_, resolve_eq, hsort⟩
  have hbrings : nameQuery.Brings posts "author.name" := by
    refine ⟨"author", "people", "name", foreign?_eq, joined "author" false, List.mem_singleton.2 rfl,
      rfl, .inr (covers_of_mem ?_)⟩
    rw [joined, leaves]
    exact List.mem_cons_self
  refine ⟨hfind, hbrings, ?_⟩
  obtain ⟨c, others, found, pairs, sorted, hc, hkeys, -, -, hpairs, hsorted, hdocs⟩ :=
    Querier.foreign_order_of_find wellKeyed_store (List.forall_mem_nil _) rfl compile_name ⟨[], rfl, rfl⟩
      (List.forall_mem_singleton.2 refers) (by simp [nameQuery, query]) hfind
  obtain rfl : compiler = c := Except.ok.inj hc
  obtain rfl : keys = others := Except.ok.inj ((keysOf_eq (by decide +kernel)).symm.trans hkeys)
  refine ⟨pairs, sorted, hpairs, ?_, hdocs.symm⟩
  have hforeign : posts.isForeign "author.name" = true := by decide +kernel
  simpa [keys, hforeign, hbrings] using hsorted

/-- With the ids alone they come as they are stored, though the names are the other way round. -/
theorem unselected_names_ignored :
    compiler.keysOf (request "_id") = .ok keys ∧
      idQuery.bare.Finds store [] [post 1 ben, post 2 ann] ∧
      store.Refers posts [post 1 ben, post 2 ann] "author.name" ∧
      keys.compareValues (store.valueBehind posts) (post 1 ben) (post 2 ann) = .gt ∧
      ((store.querier catalog "posts").find (request "_id") []).run.run =
        .ok [[("_id", .int32 1)], [("_id", .int32 2)]] := by
  have hprepare : ((store.querier catalog "posts").prepare (request "_id")).run.run =
      .ok (idQuery, []) := Querier.prepare_eq_ok_iff.2 ⟨compile_id, rfl⟩
  refine ⟨keysOf_eq (by decide +kernel), ⟨[], rfl, rfl⟩, refers, ?_, ?_⟩
  · rw [keys, SortKeys.compareValues_cons, valueBehind_eq.1, valueBehind_eq.2]
    rfl
  · exact Querier.find_eq_ok_iff.2 ⟨idQuery, [], hprepare, _, rfl, rfl⟩

end PostsByAuthor
end DocQuery
