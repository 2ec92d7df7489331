import DocQuery.Proofs.Answer.Behind
import DocQuery.Proofs.Answer.Failures
import DocQuery.Proofs.Filter.Searches

/-!
# A text search finds the relevant documents, best first

The match stage of a text search gives each row the relevance of its document, which decides what passes,
then the order of the rows, and in the end the field `score`: the projection stage writes it there, and no
join takes it away.  So the answer is what is relevant, best first, each document with its score
(`Querier.relevant_of_find`).

A match stage searches for the first text that stands in its body only.  That is the one of the request,
unless an alternative of the request searches for a text of its own, which stands in front of it.
-/

namespace DocQuery

open Test Execution

/-! ### Relevance -/

namespace Collection

/-- How many of the words in the indexed texts of a document are among the words of a text. -/
def relevance (c : Collection) (text : String) (doc : Document) : Nat :=
  Row.relevanceOf c.textIndex (Row.searchWords text) doc

/-- A document with its relevance. -/
def relevantRow (c : Collection) (text : String) (doc : Document) : Row :=
  ⟨doc, c.relevance text doc⟩

/-- The order of documents by their relevance, best first. -/
def bestFirst (c : Collection) (text : String) (a b : Document) : Ordering :=
  compare (c.relevance text b) (c.relevance text a)

variable {c : Collection} {text : String}

theorem ordersOn_bestFirst (docs : List Document) : OrdersOn (c.bestFirst text) docs where
  swap _ _ _ _ := (Nat.compare_swap _ _).symm
  trans _ _ _ _ _ _ hab hbc := by
    rw [bestFirst, Nat.isLE_compare] at *
    exact hbc.trans hab

/-- Rows in the order of their relevance are the documents in this order. -/
theorem sort_relevantRow (docs : List Document) :
    Row.sort [(scoreField, .relevance)] (docs.map (c.relevantRow text)) =
      .ok ((insertionSort (c.bestFirst text) docs).map (c.relevantRow text)) := by
  have hcompare : ∀ a ∈ docs, ∀ b ∈ docs, Row.compare [(scoreField, .relevance)] (c.relevantRow text a)
      (c.relevantRow text b) = c.bestFirst text a b := fun _ _ _ _ => Ordering.then_eq
  rw [Row.sort, stableSort_map hcompare, (ordersOn_bestFirst docs).stableSort_eq]
  rfl

theorem row_eq_relevantRow {base : StoredCollection} (hindex : base.textIndex = c.textIndex)
    {body : Document} {test : Test} (hread : Test.read body = .ok test)
    (hsearch : test.search? = some text) (doc : Document) :
    base.row body doc = c.relevantRow text doc := by
  simp only [StoredCollection.row, hread, rated, hsearch, hindex]
  rfl

end Collection

/-! ### Requests that search for a text -/

namespace Compiler

/-- A request searches a collection for a text and asks for the first documents that fit it, in the order
of their relevance.  No other text is searched for by its alternatives. -/
structure SearchesFor (c : Compiler) (request : Request) (text : String) : Prop where
  distinct : Keyed.Distinct request
  hasIndex : c.catalog.hasTextIndex c.name = true
  query : option? request c.collection.options.queryKey = some text
  unsorted : option? request c.collection.options.sortKey = none
  whole : option? request c.collection.options.unwindKey = none
  firstPage : option? request c.collection.options.pageKey = none
  alone : ∀ s, ("$text", s) ∈ request → c.collection.options.isReserved "$text" = false →
    (Condition.read s).isAlternative = true → c.collection.info? "$text" = none

namespace SearchesFor

variable {c : Compiler} {request : Request} {text : String} {query : Query}

theorem searchesText (h : c.SearchesFor request text) : c.searchesText request = true := by
  rw [Compiler.searchesText, h.query, h.hasIndex]
  rfl

theorem text_filterOf (h : c.SearchesFor request text) : (c.filterOf request).text = some text := by
  have hfree : ∀ filter, (Search.freeText text (c.catalog.hasTextIndex c.name) c.collection filter).text =
      some text := by
    intro filter
    rw [Search.freeText, h.hasIndex]
    rfl
  unfold filterOf
  simp only [h.query]
  cases option? request c.collection.options.searchKey with
  | none => exact hfree _
  | some normalized =>
    show (Search.normalized _ _ _).text = _
    unfold Search.normalized
    dsimp only
    split
    · exact hfree _
    · split <;> exact hfree _

/-- The filter searches for the text of the request. -/
theorem search?_eq (h : c.SearchesFor request text) {resolved : ResolvedIds} {test : Test}
    (hread : Test.read ((c.filterOf request).toDocument resolved) = .ok test) :
    test.search? = some text := by
  have hclauses := ((c.filterOf request).readable_toDocument_iff resolved).1 ⟨test, hread⟩
  obtain ⟨own, hown⟩ := c.exists_searchesOnly h.distinct
  have hquiet : (c.filterOf request).AnyQuiet resolved := by
    intro clause hclause
    have hsearches := (c.searchesBy_filterOf request).any clause hclause
    generalize hmark : true = alternative at hsearches
    cases hsearches with
    | nothing hnothing =>
      exact hnothing resolved (hclauses clause (List.mem_append_right _ hclause))
    | text hmem hreserved hinfo =>
      rw [h.alone _ hmem hreserved hmark.symm] at hinfo
      cases hinfo
  rw [Filter.search?_eq hread fun clause hclause => hown clause hclause resolved (hclauses clause hclause),
    if_pos hquiet, h.text_filterOf]
  rfl

/-- The query asks for the relevance, for one document each, and for the first ones. -/
theorem parts_eq (h : c.SearchesFor request text) (hquery : c.compile request = .ok query) :
    query.textSearch = true ∧ query.order = ⟨[(scoreField, .relevance)], []⟩ ∧
      query.unwind = none ∧ query.skip = 0 := by
  obtain ⟨selection, joins, order, -, -, horder, rfl⟩ := compile_eq_ok_iff.1 hquery
  have hpage : positive? request c.collection.options.pageKey = none := by
    rw [positive?, h.firstPage]
    rfl
  refine ⟨h.searchesText, ?_, ?_, ?_⟩
  · rw [orderOf, h.unsorted, h.searchesText] at horder
    obtain rfl := Except.ok.inj horder
    rfl
  · show c.unwindOf request = none
    rw [unwindOf, h.whole]
    rfl
  · rw [Query.skip, assembled, hpage]
    simp

end SearchesFor

end Compiler

/-! ### The stages behind the match stage -/

section Stages

variable {c : Collection} {text : String} {query : Query}

/-- A text search has a projection stage. -/
theorem Compiler.Means.exists_body_of_textSearch {c : Compiler} {request : Request}
    (h : c.Means request query) (htext : query.textSearch = true) :
    ∃ body, query.project = some body := by
  rw [h.project, Compiler.projectDocument, htext, if_pos rfl, if_neg]
  · exact ⟨_, rfl⟩
  · rw [List.isEmpty_iff]
    exact Keyed.put_ne_nil _ _ _

/-- Behind the match stage of a text search the rows are sorted by their relevance and projected; all
of them are on the page. -/
theorem runStages_dataStages {body : Document} {textIndex : List String} {docs : List Document}
    {resolved : ResolvedIds} (horder : query.order = ⟨[(scoreField, .relevance)], []⟩)
    (hunwind : query.unwind = none) (hskip : query.skip = 0) (hbody : query.project = some body)
    (hsize : docs.length < twoTo 63) (hlimit : docs.length ≤ query.limit.toNat) :
    runStages textIndex (docs.map (c.relevantRow text))
        ((query.parts resolved []).dataStages.map Stage.toDocument) =
      ((insertionSort (c.bestFirst text) docs).map (c.relevantRow text)).mapM (runProject body) := by
  let keys : SortKeys := [(scoreField, .relevance)]
  have hstages : (query.parts resolved []).dataStages =
      [.sort keys.toDocument, .skip query.skip, .limit query.limit, .project body] := by
    simp only [PipelineParts.dataStages, PipelineParts.sortStages, PipelineParts.unwindStages,
      Query.parts, horder, hunwind, hbody]
    rfl
  have hkeys : sortKeys keys.toDocument = .ok keys := rfl
  have hpage : (insertionSort (c.bestFirst text) docs).length ≤ min query.limit.toNat (twoTo 63 - 1) := by
    rw [(insertionSort_perm _ docs).length_eq]
    omega
  have htake : (insertionSort (c.bestFirst text) docs).take (min query.limit.toNat (twoTo 63 - 1)) =
      insertionSort (c.bestFirst text) docs := List.take_of_length_le hpage
  have hdrop : min (UInt64.toNat 0) (twoTo 63 - 1) = 0 := rfl
  rw [hstages]
  simp only [List.map_cons, List.map_nil, runStages_cons, runStages_nil, runStage_sort, hkeys,
    runStage_skip, runStage_limit, runStage_project, hskip, hdrop, List.drop_zero]
  simp only [keys, Collection.sort_relevantRow, Outcome.ok_bind, ← List.map_take, htake]
  exact bind_pure _

end Stages

/-! ### What is found -/

section Find

variable {store : Store} {catalog : Catalog} {name : String} {c : Compiler} {request : Request}
  {text : String} {query : Query} {base : StoredCollection} {doc : Document}

/-- A document satisfies all that a text search asks for but the text, and is relevant for the text. -/
def Compiler.IsRelevant (c : Compiler) (store : Store) (request : Request) (text : String)
    (doc : Document) : Prop :=
  { c.filterOf request with text := none }.Holds (JoinedClause.Holds store doc) doc
      (c.collection.relevance text doc) ∧
    0 < c.collection.relevance text doc

open Classical in
/-- The relevant documents of a stored collection. -/
noncomputable def Compiler.relevantIn (c : Compiler) (store : Store) (request : Request)
    (text : String) (base : StoredCollection) : List Document :=
  base.docs.filter fun doc => decide (c.IsRelevant store request text doc)

/-- The match stage of a text search finds what is relevant. -/
theorem Compiler.SearchesFor.finds_iff (h : c.SearchesFor request text) {resolved : ResolvedIds}
    (haccepts : base.Accepts ((c.filterOf request).toDocument resolved))
    (hids : ∀ clause ∈ (c.filterOf request).joinedClauses,
      clause.IdsAre store (resolved.get clause.slot))
    (hrow : ∀ doc, base.row ((c.filterOf request).toDocument resolved) doc =
      c.collection.relevantRow text doc) :
    base.Finds ((c.filterOf request).toDocument resolved) doc ↔ c.IsRelevant store request text doc := by
  have hread := (StoredCollection.accepts_iff.1 haccepts).1
  rw [StoredCollection.finds_iff_admits haccepts, Filter.admits_toDocument_iff_holds hread, hrow,
    Filter.holds_congr fun clause hclause => (hids clause hclause).foundIn_iff]
  simp [Filter.Holds, Compiler.IsRelevant, h.text_filterOf, Collection.relevantRow, and_assoc]

/-- What the pipeline of a text search finds: the relevant documents after the projection stage, best
first. -/
theorem Compiler.SearchesFor.projects_of_execute (h : c.SearchesFor request text)
    (hquery : c.compile request = .ok query) {resolved : ResolvedIds} {found : List Document}
    (hids : ∀ clause ∈ (c.filterOf request).joinedClauses,
      clause.IdsAre store (resolved.get clause.slot))
    (hbase : store.find? query.collection = some base)
    (hindex : base.textIndex = c.collection.textIndex) (hsize : base.docs.length < twoTo 63)
    (hlimit : (c.relevantIn store request text base).length ≤ query.limit.toNat)
    (hfound : store.execute query.collection
      ((query.pipeline .find resolved []).map Stage.toDocument) = .ok found) :
    List.Forall₂ (fun doc => query.Projects (c.collection.relevantRow text doc))
      (insertionSort (c.collection.bestFirst text) (c.relevantIn store request text base)) found := by
  classical
  have hmeans := Compiler.means_of_compile hquery
  obtain ⟨htext, horder, hunwind, hskip⟩ := h.parts_eq hquery
  obtain ⟨body, hbody⟩ := hmeans.exists_body_of_textSearch htext
  have hpipeline : (query.pipeline .find resolved []).map Stage.toDocument =
      (query.parts resolved []).baseStages.map Stage.toDocument ++
        (query.parts resolved []).dataStages.map Stage.toDocument := List.map_append
  rw [Store.execute, hbase, hpipeline] at hfound
  simp only [Outcome.map_eq_ok_iff, runStages_append, runStages_baseStages_nil,
    Outcome.bind_eq_ok_iff, hmeans.filter] at hfound
  obtain ⟨rows, ⟨passed, hpassed, hdata⟩, rfl⟩ := hfound
  -- the rows behind the match stage
  obtain ⟨test, hread, -⟩ := runMatch_eq_ok_iff.1 hpassed
  have hrow := Collection.row_eq_relevantRow hindex hread (h.search?_eq hread)
  have hfinds : (base.docs.filter fun doc =>
        decide (base.Finds ((c.filterOf request).toDocument resolved) doc)) =
      c.relevantIn store request text base :=
    List.filter_congr fun doc _ => decide_eq_decide.2 (h.finds_iff ⟨passed, hpassed⟩ hids hrow)
  rw [StoredCollection.rows_of_runMatch hpassed, funext hrow, hfinds] at hdata
  have hfew : (c.relevantIn store request text base).length < twoTo 63 :=
    (List.length_filter_le _ base.docs).trans_lt hsize
  rw [runStages_dataStages horder hunwind hskip hbody hfew hlimit, Outcome.mapM_eq_ok_iff,
    List.forall₂_map_left_iff] at hdata
  -- each of them is projected
  refine List.forall₂_map_right_iff.2 (hdata.imp fun doc row hproject => ?_)
  obtain ⟨out, hout, rfl⟩ := Outcome.map_eq_ok_iff.1 hproject
  rw [Query.Projects, hbody]
  exact hout

/-- No join takes the score away that the projection stage writes. -/
theorem Compiler.Means.get?_score_joinedBy (h : c.Means request query)
    (hprotected : c.collection.protectedSelection = .ok c.protectedFields)
    (htext : query.textSearch = true) (hscore : c.collection.fields.lookup scoreField = none)
    {row : Row} {out : Document} (hrow : row.doc.WellKeyed) (hproject : query.Projects row out)
    (found : List Document) :
    (query.joinedBy store found out).get? scoreField = some (Projection.scoreValue row.relevance) := by
  obtain ⟨body, hbody⟩ := h.exists_body_of_textSearch htext
  obtain ⟨m, tree, hasks, hwritten, hnested⟩ := h.exists_asks hprotected hbody
  rw [Query.Projects, hbody] at hproject
  rw [htext] at hasks
  refine Path.get?_updateAll_of_scalar (List.forall_mem_map.2 fun join hjoin hfield => ?_) trivial
    (Projection.get?_score hasks hwritten hnested hrow hproject)
  -- a join is at a declared field
  obtain ⟨info, target, hinfo, -⟩ := (h.isFirstReference hjoin).reference
  have hfield : Path.ofText join.field = [scoreField] := hfield
  have htext : Path.text [scoreField] = scoreField := by decide
  rw [hfield, htext, hscore] at hinfo
  cases hinfo

/-- **A text search finds the relevant documents, best first.**  A request searches a collection with a
text index for a text; it is not refused, asks for no other order, and all that is relevant is on its
page.  Then it finds the stored documents that satisfy its other filters and are relevant for the text: in
decreasing order of their relevance, where equals keep the order in which they are stored, projected and
joined as the request asks for it, and each with its relevance as its score. -/
theorem Querier.relevant_of_find (hcatalog : Keyed.Distinct catalog) (hstore : store.BuiltFor catalog)
    (hkeyed : store.WellKeyed) (hc : Compiler.new catalog name = .ok c)
    (hscore : c.collection.fields.lookup scoreField = none)
    (hsearch : c.SearchesFor request text) (hquery : c.compile request = .ok query)
    (hrefused : ¬c.Refused store request) (hbase : store.find? name = some base)
    (hsize : base.docs.length < twoTo 63)
    (hlimit : (c.relevantIn store request text base).length ≤ query.limit.toNat) :
    ∃ relevant found docs,
      ((store.querier catalog name).find request []).run.run = .ok docs ∧
      StablySorted (c.collection.bestFirst text) (c.relevantIn store request text base) relevant ∧
      List.Forall₂ (fun doc => query.Projects (c.collection.relevantRow text doc)) relevant found ∧
      (Join.resolve store.source query.joins found).run.run = .ok docs ∧
      List.Forall₂ (fun doc out => out.get? scoreField =
        some (.double (Double.ofNat (c.collection.relevance text doc)))) relevant docs := by
  obtain ⟨hcat, rfl, hcollection, hprotected⟩ := Compiler.new_eq_ok_iff.1 hc
  have hmeans := Compiler.means_of_compile hquery
  obtain ⟨htext, horder, -, -⟩ := hsearch.parts_eq hquery
  -- the steps of the answer
  have hopen : ¬c.LeftOpen store request := by
    refine Compiler.not_leftOpen hquery (fun rows => .inr ?_) fun docs => .inr ?_
    · rw [horder]
      exact (Row.ordersOn_relevance scoreField rows).lex (.const_eq rows)
    · rw [horder]
      exact .const_eq docs
  obtain ⟨docs, hdocs⟩ := find_of_compiled hc hquery hbase hrefused hopen
  obtain ⟨again, resolved, hprepare, found, hrun, hfinish⟩ := find_eq_ok_iff.1 hdocs
  obtain ⟨hagain, hresolved⟩ := prepare_eq_ok_iff.1 hprepare
  rw [Querier.compile, hc, Outcome.ok_bind] at hagain
  obtain rfl : query = again := Except.ok.inj (hquery.symm.trans hagain)
  obtain ⟨joined, hjoined, hsorted⟩ := finish_eq_ok_iff.1 hfinish
  rw [horder, sortDocuments_nil] at hsorted
  obtain rfl := Except.ok.inj hsorted
  have hids : ∀ clause ∈ (c.filterOf request).joinedClauses,
      clause.IdsAre store (resolved.get clause.slot) := by
    rw [hmeans.filter] at hresolved
    obtain ⟨ids, hthese, hids⟩ := exists_idsAre_of_accepted (c.slotted_filterOf request)
      (exists_resolveJoined_eq_ok_iff.1 ⟨resolved, hresolved⟩)
    obtain rfl : resolved = ids := Except.ok.inj (hresolved.symm.trans hthese)
    exact hids
  obtain ⟨again, hagain, hindex⟩ := hstore.indexes hcatalog hcollection
  obtain rfl : base = again := Option.some.inj (hbase.symm.trans hagain)
  rw [← hmeans.collection] at hbase
  have hprojects := hsearch.projects_of_execute hquery hids hbase hindex hsize hlimit hrun
  refine ⟨_, found, joined, hdocs, stablySorted_insertionSort (Collection.ordersOn_bestFirst _),
    hprojects, hjoined, ?_⟩
  rw [((Join.resolve_eq_ok_iff store found).1 hjoined).2, List.forall₂_map_right_iff]
  refine List.forall₂_iff_zip.2 ⟨hprojects.length_eq, ?_⟩
  intro doc out hmem
  have hdoc : doc ∈ base.docs :=
    List.mem_of_mem_filter ((insertionSort_perm _ _).mem_iff.1 (List.of_mem_zip hmem).1)
  exact hmeans.get?_score_joinedBy hprotected htext hscore (hkeyed _ base hbase doc hdoc)
    (List.forall₂_zip hprojects hmem) found

end Find

/-! ### Posts about Rust -/

namespace PostsByRelevance

def collection : Collection :=
  ⟨[("title", ⟨.string, none, false⟩), ("$text", ⟨.string, none, false⟩)], ["title"],
    { Options.standard with defaultFields := none }⟩

def catalog : Catalog := [("posts", collection)]

def compiler : Compiler := ⟨catalog, "posts", collection, []⟩

def post (n : Int32) (title : String) : Document := [("_id", .int32 n), ("title", .string title)]

def posts : StoredCollection := ⟨[post 1 "rust", post 2 "bread", post 3 "rust, no rust"], ["title"]⟩

def store : Store := ((Store.forCatalog ⟨0⟩ catalog).insertMany "posts" posts.docs).2

def plain : Request := [("$q", "rust")]

/-- The same with an alternative that searches for another text. -/
def mixed : Request := [("$q", "rust"), ("$text", "\x7b$or\x7d\x7b$search\x7dbread")]

/-- What such a request means. -/
def query (any : List Clause) : Query where
  collection := "posts"
  filter := ⟨[], any, some "rust", 0⟩
  order := ⟨[(scoreField, .relevance)], []⟩
  selection := none
  project := some [(scoreField, Projection.relevanceFlag)]
  joins := []
  unwind := none
  page := 1
  limit := 20
  textSearch := true

def breadClause : Clause := .field "$text" (.document [("$search", .string "bread")])

def scored (n : Int32) (title : String) (relevance : Nat) : Document :=
  post n title ++ [(scoreField, .double (Double.ofNat relevance))]

theorem new_eq : Compiler.new catalog "posts" = .ok compiler := rfl

section Compile

variable {request : Request} {any : List Clause}

theorem compile_eq (hoptions : ∀ option ∈ [("$q", some "rust"), ("$fields", none), ("$getAllFields", none),
      ("$page", none), ("$limit", none), ("$sort", none), ("$search", none), ("$unwind", none)],
        Compiler.option? request option.1 = option.2)
    (hfilter : compiler.filterOf request = (query any).filter) :
    compiler.compile request = .ok (query any) := by
  simp only [List.forall_mem_cons] at hoptions
  obtain ⟨hquery, hfields, hall, hpage, hlimit, hsort, hnone⟩ := hoptions
  have hstandard : compiler.collection.options =
      { Options.standard with defaultFields := none } := rfl
  have hselection : compiler.selectionOf request = .ok none := by
    unfold Compiler.selectionOf
    simp only [hstandard, Options.standard, hfields, Option.none_or]
  rw [Compiler.compile, hselection, Outcome.ok_bind, hfilter]
  simp only [hstandard, Options.standard, hquery, hnone, hsort, hpage, hlimit, Compiler.unwindOf,
    Compiler.positive?]
  rfl

theorem find_eq (hquery : compiler.compile request = .ok (query any)) {docs : List Document}
    (hjoins : (query any).filter.joins = [])
    (hexecute : store.execute "posts" (((query any).pipeline .find [] []).map Stage.toDocument) = .ok docs) :
    ((store.querier catalog "posts").find request []).run.run = .ok docs := by
  have hprepare : ((store.querier catalog "posts").prepare request).run.run = .ok (query any, []) := by
    refine Querier.prepare_eq_ok_iff.2 ⟨?_, ?_⟩
    · exact hquery
    · rw [hjoins]
      rfl
  have hfinish : ((store.querier catalog "posts").finish (query any) docs).run.run = .ok docs :=
    Querier.finish_eq_ok_iff.2 ⟨docs, rfl, sortDocuments_nil docs⟩
  exact Querier.find_eq_ok_iff.2 ⟨query any, [], hprepare, docs, hexecute, hfinish⟩

end Compile

theorem compile_plain : compiler.compile plain = .ok (query []) :=
  compile_eq (by decide +kernel) (by rfl)

theorem compile_mixed : compiler.compile mixed = .ok (query [breadClause]) := by
  refine compile_eq (by decide +kernel) ?_
  have hread : Condition.read "\x7b$or\x7d\x7b$search\x7dbread" =
      ⟨true, "\x7b$search\x7dbread", [⟨some "$search", "bread"⟩]⟩ := by decide +kernel
  simp only [Compiler.filterOf, mixed, List.foldl_cons, List.foldl_nil, Compiler.addPair, hread]
  rfl

theorem find_plain : ((store.querier catalog "posts").find plain []).run.run =
    .ok [scored 3 "rust, no rust" 2, scored 1 "rust" 1] :=
  find_eq compile_plain rfl rfl

theorem find_mixed : ((store.querier catalog "posts").find mixed []).run.run =
    .ok [scored 2 "bread" 1] :=
  find_eq compile_mixed rfl rfl

theorem searchesFor_plain : compiler.SearchesFor plain "rust" where
  distinct := by simp [plain, Keyed.Distinct, Keyed.keys]
  hasIndex := rfl
  query := by decide +kernel
  unsorted := by decide +kernel
  whole := by decide +kernel
  firstPage := by decide +kernel
  alone := by simp [plain]

theorem not_refused_plain : ¬compiler.Refused store plain := by
  have hmeans := Compiler.means_of_compile compile_plain
  have hfilter : compiler.filterOf plain = (query []).filter := hmeans.filter.symm
  have hjoins : (compiler.filterOf plain).joins = [] := by rw [hfilter]; rfl
  have hfields : compiler.fieldsText plain = none := by decide +kernel
  have horder : compiler.orderText plain = none := by decide +kernel
  intro hrefused
  cases hrefused with
  | fields htext =>
    rw [hfields] at htext
    cases htext
  | order htext =>
    rw [horder] at htext
    cases htext
  | clauseTarget hclause => simp [hjoins] at hclause
  | condition hclause => simp [hjoins] at hclause
  | joinTarget hquery hdocs hjoin =>
    obtain rfl := Except.ok.inj (compile_plain.symm.trans hquery)
    cases hjoin
  | filter hbase hrefused =>
    obtain rfl : posts = _ := Option.some.inj hbase
    refine hrefused ((Filter.accepts_toDocument_iff posts [] _ _).1 ?_)
    rw [hfilter]
    exact ⟨_, rfl⟩

theorem wellKeyed_store : store.WellKeyed := by
  refine Store.wellKeyed_insertMany (Store.wellKeyed_forCatalog _ _) ?_ "posts"
  simp only [posts, List.forall_mem_cons, Document.wellKeyed_iff]
  simp [post, Keyed.Distinct, Keyed.keys, Value.WellKeyed]

/-- Two posts are about Rust, one of them more so. -/
theorem rust_found_best_first :
    ((store.querier catalog "posts").find plain []).run.run =
        .ok [scored 3 "rust, no rust" 2, scored 1 "rust" 1] ∧
      ∃ relevant, StablySorted (collection.bestFirst "rust")
          (compiler.relevantIn store plain "rust" posts) relevant ∧
        List.Forall₂ (fun doc out => Document.get? out scoreField =
            some (.double (Double.ofNat (collection.relevance "rust" doc))))
          relevant [scored 3 "rust, no rust" 2, scored 1 "rust" 1] := by
  have hcatalog : Keyed.Distinct catalog := List.nodup_singleton _
  have hstore : store.BuiltFor catalog := .insertMany (.new ⟨0⟩) "posts" _
  have hlimit : (compiler.relevantIn store plain "rust" posts).length ≤ (query []).limit.toNat :=
    (List.length_filter_le _ posts.docs).trans (by decide)
  obtain ⟨relevant, found, docs, hfind, hsorted, -, -, hscores⟩ :=
    Querier.relevant_of_find hcatalog hstore wellKeyed_store new_eq rfl searchesFor_plain
      compile_plain not_refused_plain rfl (by decide) hlimit
  obtain rfl := Except.ok.inj (find_plain.symm.trans hfind)
  exact ⟨find_plain, relevant, hsorted, hscores⟩

/-- With an alternative that searches for bread, the post about bread is found in a search for Rust, for
which it is not relevant; those about Rust are not. -/
theorem bread_found_for_rust :
    Compiler.option? mixed "$q" = some "rust" ∧
      Compiler.option? mixed "$unwind" = none ∧ Compiler.option? mixed "$sort" = none ∧
      Compiler.option? mixed "$page" = none ∧
      collection.textIndex = ["title"] ∧ collection.fields.lookup scoreField = none ∧
      collection.relevance "rust" (post 2 "bread") = 0 ∧
      ((store.querier catalog "posts").find mixed []).run.run = .ok [scored 2 "bread" 1] := by
  refine ⟨by decide +kernel, by decide +kernel, by decide +kernel, by decide +kernel, rfl, rfl, ?_,
    find_mixed⟩
  decide +kernel

end PostsByRelevance

end DocQuery
