import DocQuery.Proofs.Answer.Joined
import DocQuery.Proofs.Answer.Strategies
import DocQuery.Proofs.Query.Fetched
import DocQuery.Proofs.Store.Ordering
import Mathlib.Data.List.Nodup

/-!
# Protected fields

The projection stage of a query hides what its collection protects: with a selection, because all that
is taken is apart from it (`Answers.hidden_found_of_some`), and without one, because it is left out
(`Answers.hidden_found_of_none`).  The joins bring none of it back, and nothing that their own
collections protect (`Answers.hidden_joined`).

There is one exception: the body of a text search that selects nothing but fields of the relevance has
no flag left that takes a field, so the store reads it as a body of fields to leave out.  Then no field
but the relevance is hidden (`Answers.candidates_of_scoreOnly`).
-/

namespace DocQuery

open Selection

namespace Compiler

variable {c : Compiler}

theorem new_eq_ok {catalog : Catalog} {name : String} {collection : Collection} {hidden : Selection}
    (hcollection : catalog.find? name = some collection)
    (hhidden : collection.protectedSelection = .ok hidden) (h : Compiler.new catalog name = .ok c) :
    c = ⟨catalog, name, collection, hidden⟩ :=
  Except.ok.inj (h.symm.trans (new_eq_ok_iff.2 ⟨rfl, rfl, hcollection, hhidden⟩))

end Compiler

namespace Query.Selects

variable {catalog : Catalog} {collection : Collection} {hidden selection : Selection} {query : Query}

theorem joins_written (h : query.Selects catalog collection hidden selection) :
    ∀ join ∈ query.joins, Fits (Selection.written included) join.selection :=
  fun join hjoin => (h.planned.each join hjoin).written

/-- The joins bring nothing to a field that the collection protects. -/
theorem clears (h : query.Selects catalog collection hidden selection) {path : Path}
    (hpath : path ∈ leaves hidden) (hid : "_id" ∉ path) : ∀ join ∈ query.joins, join.Clears path := by
  intro join hjoin
  obtain ⟨_, hwanted, tail, rfl⟩ := (h.planned.each join hjoin).towards
  have hapart := h.apart _ hwanted path hpath
  rcases Path.apart_or (Path.ofText join.field) path with hfield | ⟨rest, rfl⟩ | hfield
  · exact .inl hfield
  · have hne : rest ≠ [] := by
      rintro rfl
      rw [List.append_nil] at hapart
      exact hapart.2 (List.prefix_append _ _)
    have hidRest : "_id" ∉ rest := fun hmem => hid (List.mem_append_right _ hmem)
    refine .inr ⟨rest, rfl, hne, hidRest, ?_⟩
    intro leaf hleaf
    have hlong := h.apart _ ((h.planned.each join hjoin).wanted leaf hleaf) _ hpath
    exact (Path.apart_append_iff _).1 hlong
  · exact absurd (hfield.trans (List.prefix_append _ _)) hapart.2

/-- The joins bring nothing to a field behind one of them that its own collection protects. -/
theorem clears_behind (h : query.Selects catalog collection hidden selection) {join : Join}
    (hjoin : join ∈ query.joins) {target : Collection} {theirs : Selection}
    (htarget : catalog.find? join.collection = some target)
    (htheirs : target.protectedSelection = .ok theirs) {rest : Path} (hrest : rest ∈ leaves theirs)
    (hid : "_id" ∉ rest) :
    ∀ other ∈ query.joins, other.Clears (Path.ofText join.field ++ rest) := by
  intro other hother
  by_cases hfield : other.field = join.field
  · obtain rfl : other = join := List.inj_on_of_nodup_map h.planned.distinct hother hjoin hfield
    refine .inr ⟨rest, rfl, ne_nil_of_mem_leaves hrest, hid, ?_⟩
    intro leaf hleaf
    exact h.stripped other hother target theirs htarget htheirs leaf hleaf rest hrest
  · have hapart := Join.apart_of_planned (h.planned.each other hother) (h.planned.each join hjoin) hfield
    exact .inl (hapart.of_longer (List.prefix_append _ _))

end Query.Selects

/-! ### How an answer comes about -/

/-- The documents of an answer: rows are matched, projected one by one, joined and sorted. -/
structure Query.Answers (store : Store) (query : Query) (resolved : ResolvedIds) (rows : List Row)
    (found joined docs : List Document) : Prop where
  ids : (resolveJoined store.source query.filter.joins).run.run = .ok resolved
  bare : store.execute query.collection
    ((query.bare.pipeline .find resolved []).map Stage.toDocument) = .ok (rows.map Row.doc)
  keyed : Row.AllWellKeyed rows
  projected : match query.project with
    | none => found = rows.map Row.doc
    | some body => List.Forall₂
        (fun row doc => Projection.project row.relevance row.doc body = .ok doc) rows found
  joins : (Join.resolve store.source query.joins found).run.run = .ok joined
  sorted : docs.Perm joined

theorem Querier.answers_of_find {store : Store} (hstore : store.WellKeyed) {catalog : Catalog}
    {name : String} {request : Request} {query : Query} {docs : List Document}
    (hquery : (store.querier catalog name).compile request = .ok query)
    (h : ((store.querier catalog name).find request []).run.run = .ok docs) :
    ∃ resolved rows found joined, query.Answers store resolved rows found joined docs := by
  obtain ⟨again, resolved, hprepare, found, hrun, hfinish⟩ := find_eq_ok_iff.1 h
  obtain ⟨hagain, hids⟩ := prepare_eq_ok_iff.1 hprepare
  obtain rfl : query = again := Except.ok.inj (hquery.symm.trans hagain)
  obtain ⟨rows, hkeyed, hbare, hprojected⟩ := Store.execute_find_eq_ok hstore (List.forall_mem_nil _) hrun
  obtain ⟨joined, hjoined, hsorted⟩ := finish_eq_ok_iff.1 hfinish
  exact ⟨resolved, rows, found, joined, hids, hbare, hkeyed, hprojected, hjoined,
    sortDocuments_perm hsorted⟩

/-! ### Hiding -/

namespace Query.Answers

variable {store : Store} {query : Query} {resolved : ResolvedIds} {rows : List Row}
  {found joined docs : List Document} {path : Path}

/-- Each document is a row after the projection stage. -/
theorem forall₂_row (h : query.Answers store resolved rows found joined docs) {body : Document}
    (hbody : query.project = some body) : List.Forall₂ (fun row doc => row.doc.WellKeyed ∧
      Projection.project row.relevance row.doc body = .ok doc) rows found := by
  have hforall := h.projected
  rw [hbody] at hforall
  refine List.forall₂_iff_zip.2 ⟨hforall.length_eq, ?_⟩
  intro row doc hmem
  have hrow : row ∈ rows := (List.of_mem_zip hmem).1
  exact ⟨h.keyed row hrow, List.forall₂_zip hforall hmem⟩

theorem exists_row (h : query.Answers store resolved rows found joined docs) {body : Document}
    (hbody : query.project = some body) {doc : Document} (hdoc : doc ∈ found) :
    ∃ row : Row, row.doc.WellKeyed ∧ Projection.project row.relevance row.doc body = .ok doc := by
  obtain ⟨row, -, hrow⟩ := Outcome.exists_of_forall₂ (h.forall₂_row hbody) hdoc
  exact ⟨row, hrow⟩

theorem wellKeyed_found (h : query.Answers store resolved rows found joined docs) :
    Document.AllWellKeyed found := by
  cases hproject : query.project with
  | none =>
    have hfound := h.projected
    rw [hproject] at hfound
    obtain rfl : found = rows.map Row.doc := hfound
    exact List.forall_mem_map.2 h.keyed
  | some body =>
    intro doc hdoc
    obtain ⟨row, hkeyed, hdoc⟩ := h.exists_row hproject hdoc
    exact Projection.wellKeyed_project hkeyed hdoc

theorem hidden_docs (h : query.Answers store resolved rows found joined docs)
    (hjoined : Path.Hidden joined path) : Path.Hidden docs path :=
  fun doc hdoc => hjoined doc (h.sorted.mem_iff.1 hdoc)

/-- Behind the relevance nothing is found. -/
theorem hidden_found_of_score (h : query.Answers store resolved rows found joined docs)
    {tree : Selection} {m : Int32} {body : Document} (hbody : query.project = some body)
    (hasks : Projection.Asks tree true body) (hwritten : Fits (written m) tree)
    (hnested : Nested tree) (hhead : path.head? = some scoreField) (hpath : path ≠ [scoreField]) :
    Path.Hidden found path := by
  obtain ⟨key, rest, rfl⟩ := List.exists_cons_of_ne_nil (l := path) (by rintro rfl; cases hhead)
  obtain rfl : key = scoreField := Option.some.inj hhead
  obtain ⟨next, rest, rfl⟩ := List.exists_cons_of_ne_nil (l := rest) (by rintro rfl; exact hpath rfl)
  intro doc hdoc
  obtain ⟨row, hkeyed, hproject⟩ := h.exists_row hbody hdoc
  have hget := Projection.get?_score hasks hwritten hnested hkeyed hproject
  rw [Path.candidates_cons_of_get hget]
  exact Projection.below_scoreValue next rest

section Means

variable {c : Compiler} {request : Request}

/-- Without a selection, the protected fields are left out. -/
theorem hidden_found_of_none (h : query.Answers store resolved rows found joined docs)
    (hmeans : c.Means request query) (hnone : query.selection = none)
    (hwritten : Fits (written excluded) c.protectedFields) (hpath : path ∈ leaves c.protectedFields)
    (hid : "_id" ∉ path) (hscore : query.textSearch = true → path ≠ [scoreField]) :
    Path.Hidden found path := by
  obtain ⟨leaf, hleaf, tail, rfl⟩ := covers_canonical (covers_of_mem hpath)
  have hnested := nested_canonical c.protectedFields
  obtain ⟨body, hbody, hasks⟩ := c.exists_body_of_none query.textSearch hleaf
  rw [← hmeans.joinsOfNone hnone, ← hnone, ← hmeans.project] at hbody
  have hne := ne_nil_of_mem_leaves hleaf
  by_cases hhead : query.textSearch = true ∧ leaf.head? = some scoreField
  · rw [hhead.1] at hasks
    refine h.hidden_found_of_score hbody hasks (fits_canonical hwritten) hnested ?_ (hscore hhead.1)
    rw [List.head?_append_of_ne_nil _ hne, hhead.2]
  · intro doc hdoc
    obtain ⟨row, hkeyed, hproject⟩ := h.exists_row hbody hdoc
    have hidLeaf : "_id" ∉ leaf := fun hmem => hid (List.mem_append_left _ hmem)
    have hscoreLeaf : query.textSearch = true → leaf.head? ≠ some scoreField :=
      fun hscored hscore => hhead ⟨hscored, hscore⟩
    refine Path.candidates_append_eq_nil ?_ hne tail
    exact Projection.candidates_project_excluded hasks (fits_canonical hwritten) hnested hkeyed hproject
      hleaf hidLeaf hscoreLeaf

/-- Without a selection there are no joins either, so the protected fields are hidden. -/
theorem hidden_of_none (hstore : store.WellKeyed)
    (h : query.Answers store resolved rows found joined docs)
    (hmeans : c.Means request query) (hnone : query.selection = none)
    (hwritten : Fits (written excluded) c.protectedFields) (hpath : path ∈ leaves c.protectedFields)
    (hid : "_id" ∉ path) (hscore : query.textSearch = true → path ≠ [scoreField]) :
    Path.Hidden docs path := by
  have hjoins := hmeans.joinsOfNone hnone
  have hfound := h.hidden_found_of_none hmeans hnone hwritten hpath hid hscore
  refine h.hidden_docs (Join.hidden_resolve hstore ?_ h.wellKeyed_found h.joins ?_ (.inl hfound))
  · simp [hjoins]
  · simp [hjoins]

variable {catalog : Catalog} {collection : Collection} {hidden selection : Selection}

/-- With a selection, what is apart from all that is taken is not there. -/
theorem hidden_found_of_some (h : query.Answers store resolved rows found joined docs)
    (hmeans : c.Means request query) (hselection : query.selection = some selection)
    (hselects : query.Selects catalog collection hidden selection)
    (hscoreOnly : query.textSearch = true → ¬ ScoreOnly selection)
    (hapart : ∀ leaf ∈ leaves selection, Path.Apart leaf path)
    (hjoins : ∀ join ∈ query.joins, Path.Apart (Path.ofText join.field) path)
    (hid : "_id" ∉ path) (hne : path ≠ [])
    (hscore : query.textSearch = true → path ≠ [scoreField]) : Path.Hidden found path := by
  obtain ⟨body, hbody, hasks⟩ := hmeans.exists_body_of_some hselection
  have hkey : ∃ key ∈ Keyed.keys (Compiler.taken selection query.joins),
      ¬(query.textSearch = true ∧ key = scoreField) := by
    by_cases hsearch : query.textSearch = true
    · obtain ⟨key, hkey, hother⟩ := Compiler.exists_key_taken_of_not_scoreOnly hselects.written
        hselects.planned (hscoreOnly hsearch)
      exact ⟨key, hkey, fun hboth => hother hboth.2⟩
    · obtain ⟨key, hkey⟩ := exists_key_orId (Compiler.marked selection.canonical query.joins)
      exact ⟨key, hkey, fun hboth => hsearch hboth.1⟩
  have hwritten := Compiler.fits_taken hselects.written hselects.planned
  have htaken := Compiler.apart_taken hapart hjoins hid hne
  intro doc hdoc
  obtain ⟨row, -, hproject⟩ := h.exists_row hbody hdoc
  exact Projection.candidates_project_included hasks hwritten (Compiler.nested_taken _ _) hkey hproject
    htaken hid hne hscore

/-- A protected field is hidden, unless a text search selects nothing but fields of the relevance. -/
theorem hidden_of_some (hstore : store.WellKeyed)
    (h : query.Answers store resolved rows found joined docs)
    (hmeans : c.Means request query) (hselection : query.selection = some selection)
    (hselects : query.Selects catalog collection hidden selection) (hpath : path ∈ leaves hidden)
    (hid : "_id" ∉ path) (hscore : query.textSearch = true → path ≠ [scoreField])
    (hscoreOnly : query.textSearch = true → ScoreOnly selection →
      path.head? = some scoreField) : Path.Hidden docs path := by
  refine h.hidden_docs (Join.hidden_resolve hstore hselects.joins_written h.wellKeyed_found h.joins
    (hselects.clears hpath hid) ?_)
  by_cases hjoins : ∀ join ∈ query.joins, Path.Apart (Path.ofText join.field) path
  · refine .inl ?_
    by_cases hhead : query.textSearch = true ∧ ScoreOnly selection
    · obtain ⟨body, hbody, hasks⟩ := hmeans.exists_body_of_some hselection
      rw [hhead.1] at hasks
      have hwritten := Compiler.fits_taken hselects.written hselects.planned
      exact h.hidden_found_of_score hbody hasks hwritten (Compiler.nested_taken _ _)
        (hscoreOnly hhead.1 hhead.2) (hscore hhead.1)
    · have hother : query.textSearch = true → ¬ ScoreOnly selection :=
        fun hsearch honly => hhead ⟨hsearch, honly⟩
      have hapart : ∀ leaf ∈ leaves selection, Path.Apart leaf path :=
        fun leaf hleaf => hselects.apart leaf hleaf path hpath
      exact h.hidden_found_of_some hmeans hselection hselects hother hapart hjoins hid
        (ne_nil_of_mem_leaves hpath) hscore
  · push Not at hjoins
    exact .inr hjoins

/-- What a joined collection protects is hidden behind the field of the join. -/
theorem hidden_joined (hstore : store.WellKeyed)
    (h : query.Answers store resolved rows found joined docs)
    (hselects : query.Selects catalog collection hidden selection) {join : Join}
    (hjoin : join ∈ query.joins) {target : Collection} {theirs : Selection}
    (htarget : catalog.find? join.collection = some target)
    (htheirs : target.protectedSelection = .ok theirs) {rest : Path} (hrest : rest ∈ leaves theirs)
    (hid : "_id" ∉ rest) : Path.Hidden docs (Path.ofText join.field ++ rest) := by
  have hclears := hselects.clears_behind hjoin htarget htheirs hrest hid
  have hbehind : ¬ Path.Apart (Path.ofText join.field) (Path.ofText join.field ++ rest) :=
    fun hapart => hapart.1 (List.prefix_append _ _)
  have hjoined := Join.hidden_resolve hstore hselects.joins_written h.wellKeyed_found h.joins hclears
    (.inr ⟨join, hjoin, hbehind⟩)
  exact h.hidden_docs hjoined

/-- A text search that selects nothing but fields of the relevance hides none of the others. -/
theorem candidates_of_scoreOnly (hstore : store.WellKeyed)
    (h : query.Answers store resolved rows found joined docs)
    (hmeans : c.Means request query) (hselection : query.selection = some selection)
    (hselects : query.Selects catalog collection hidden selection) (hsearch : query.textSearch = true)
    (hscoreOnly : ScoreOnly selection) (hne : path ≠ [])
    (hhead : path.head? ≠ some scoreField) :
    (docs.map (Path.candidates · path)).Perm
      ((rows.map Row.doc).map (Path.candidates · path)) := by
  obtain ⟨body, hbody, hasks⟩ := hmeans.exists_body_of_some hselection
  rw [hsearch] at hasks
  have hfields : ∀ join ∈ query.joins, Path.Apart (Path.ofText join.field) path := by
    intro join hjoin
    obtain ⟨_, hwanted, tail, rfl⟩ := (hselects.planned.each join hjoin).towards
    have hfirst := hscoreOnly.2 _ hwanted
    obtain ⟨first, others, hfield⟩ := List.exists_cons_of_ne_nil (Path.ofText_ne_nil join.field)
    obtain ⟨key, rest, rfl⟩ := List.exists_cons_of_ne_nil hne
    rw [hfield] at hfirst ⊢
    refine Path.apart_cons_of_ne ?_
    rintro rfl
    exact hhead hfirst
  have hfound : found.map (Path.candidates · path) =
      (rows.map Row.doc).map (Path.candidates · path) := by
    have hwritten := Compiler.fits_taken hselects.written hselects.planned
    have hkeys := Compiler.keys_taken_of_scoreOnly hselects.written hselects.planned hscoreOnly
    have hforall : List.Forall₂ (fun row doc =>
        Path.candidates doc path = Path.candidates row.doc path) rows found := by
      refine (h.forall₂_row hbody).imp ?_
      intro row doc hrow
      exact Projection.candidates_project_relevance hasks hwritten (Compiler.nested_taken _ _) hkeys
        hrow.1 hrow.2 hhead
    rw [← List.forall₂_eq_eq_eq, List.map_map, List.forall₂_map_left_iff, List.forall₂_map_right_iff]
    exact hforall.flip
  have hjoined := Join.candidates_resolve_of_apart hstore hselects.joins_written h.joins hfields
  rw [← hfound, ← hjoined]
  exact h.sorted.map _

end Means

end Query.Answers

/-- A text search that selects fields of the relevance and nothing else. -/
def Query.SelectsScoreOnly (query : Query) : Prop :=
  query.textSearch = true ∧ ∃ selection, query.selection = some selection ∧ ScoreOnly selection

namespace Querier

variable {store : Store} {catalog : Catalog} {name : String} {collection : Collection}
  {hidden : Selection} {request : Request} {query : Query} {docs : List Document}

/-- **Protected fields do not leave the store**, neither those of the collection nor behind a join those
of the joined one, but for one kind of request.  A text search that selects nothing but fields of the
relevance gives documents with all the other fields: there a protected field is hidden if and only if
the documents of the page (`bare`, from the pipeline without its projection) do not have it. -/
theorem protected_hidden_iff (hstore : store.WellKeyed)
    (hcollection : catalog.find? name = some collection)
    (hhidden : collection.protectedSelection = .ok hidden)
    (hquery : (store.querier catalog name).compile request = .ok query)
    (hdocs : ((store.querier catalog name).find request []).run.run = .ok docs ∨
      ∃ page, ((store.querier catalog name).page request []).run.run = .ok page ∧ page.docs = docs) :
    ∃ resolved bare, (resolveJoined store.source query.filter.joins).run.run = .ok resolved ∧
      store.execute name ((query.bare.pipeline .find resolved []).map Stage.toDocument) = .ok bare ∧
      (∀ path ∈ leaves hidden, "_id" ∉ path → (query.textSearch = true → path ≠ [scoreField]) →
        (Path.Hidden docs path ↔
          (query.SelectsScoreOnly → path.head? = some scoreField ∨ Path.Hidden bare path))) ∧
      ∀ join ∈ query.joins, ∀ target theirs, catalog.find? join.collection = some target →
        target.protectedSelection = .ok theirs → ∀ path ∈ leaves theirs, "_id" ∉ path →
          Path.Hidden docs (Path.ofText join.field ++ path) := by
  have hfind : ((store.querier catalog name).find request []).run.run = .ok docs := by
    rcases hdocs with hfind | ⟨page, hpage, rfl⟩
    · exact hfind
    · obtain ⟨_, _, hfind, _⟩ := (page_eq_ok_iff_find_count catalog name store []).1 hpage
      exact hfind
  obtain ⟨resolved, rows, found, joined, h⟩ := answers_of_find hstore hquery hfind
  obtain ⟨c, hc, hmeans⟩ := compile_eq_ok hquery
  obtain rfl : c = ⟨catalog, name, collection, hidden⟩ := Compiler.new_eq_ok hcollection hhidden hc
  have hbare := h.bare
  rw [hmeans.collection] at hbare
  refine ⟨resolved, rows.map Row.doc, h.ids, hbare, fun path hpath hid hscore => ?_, ?_⟩
  · cases hselection : query.selection with
    | none =>
      have hnot : ¬ query.SelectsScoreOnly := by
        rintro ⟨-, selection, hsome, -⟩
        rw [hselection] at hsome
        cases hsome
      have hdocs := h.hidden_of_none hstore hmeans hselection
        (Collection.fits_protectedSelection hhidden) hpath hid hscore
      exact iff_of_true hdocs fun honly => absurd honly hnot
    | some selection =>
      have hselects := hmeans.selects hselection
      by_cases honly : query.SelectsScoreOnly ∧ path.head? ≠ some scoreField
      · obtain ⟨⟨hsearch, _, hsome, hscoreOnly⟩, hhead⟩ := honly
        obtain rfl : selection = _ := Option.some.inj (hselection.symm.trans hsome)
        have hperm := h.candidates_of_scoreOnly hstore hmeans hselection hselects hsearch hscoreOnly
          (ne_nil_of_mem_leaves hpath) hhead
        rw [Path.hidden_congr hperm]
        exact ⟨fun hbare _ => .inr hbare,
          fun hbare => (hbare ⟨hsearch, selection, hselection, hscoreOnly⟩).resolve_left hhead⟩
      · rw [not_and, not_not] at honly
        refine iff_of_true ?_ fun hscoreOnly => .inl (honly hscoreOnly)
        exact h.hidden_of_some hstore hmeans hselection hselects hpath hid hscore
          fun hsearch hscoreOnly => honly ⟨hsearch, selection, hselection, hscoreOnly⟩
  · intro join hjoin target theirs htarget htheirs path hpath hid
    cases hselection : query.selection with
    | none =>
      rw [hmeans.joinsOfNone hselection] at hjoin
      cases hjoin
    | some selection =>
      exact h.hidden_joined hstore (hmeans.selects hselection) hjoin htarget htheirs hpath hid

end Querier

/-! ### Searching for one post -/

namespace RustPosts

def collection : Collection :=
  ⟨[("title", ⟨.string, none, false⟩), ("secret", ⟨.string, none, false⟩)], ["title"],
    { Options.standard with protectedFields := some "secret" }⟩

def catalog : Catalog := [("posts", collection)]

def hidden : Selection := [("secret", .marker excluded)]

def post : Document := [("_id", .int32 1), ("title", .string "rust"), ("secret", .string "x")]

def store : Store := ((Store.forCatalog ⟨0⟩ catalog).insertMany "posts" [post]).2

theorem wellKeyed_store : store.WellKeyed := by
  refine Store.wellKeyed_insertMany (Store.wellKeyed_forCatalog _ _) ?_ "posts"
  rw [List.forall_mem_singleton, Document.wellKeyed_iff]
  exact ⟨by simp [post, Keyed.Distinct, Keyed.keys], by simp [post, Value.WellKeyed]⟩

theorem protectedSelection_eq : collection.protectedSelection = .ok hidden := by
  have htokens : tokens "secret" = .ok [.key "secret"] := by decide +kernel
  have hread : Selection.read excluded "secret" = .ok hidden := by
    rw [Selection.read, htokens]
    rfl
  show readOrError excluded "secret" = .ok hidden
  rw [readOrError, hread]
  rfl

theorem canonical_hidden : hidden.canonical = hidden := by rfl

theorem leaves_hidden : leaves hidden = [["secret"]] := by
  rw [hidden, leaves, Path.ofText_of_plain (by decide)]
  rfl

def compiler : Compiler := ⟨catalog, "posts", collection, hidden⟩

/-- A text search that selects fields. -/
def search (fields : String) : Request := [("$q", "rust"), ("$fields", fields)]

/-- What it means, if one of the fields is not protected. -/
def query (field : String) (project : Document) : Query where
  collection := "posts"
  filter := ⟨[], [], some "rust", 0⟩
  order := ⟨[(scoreField, .relevance)], []⟩
  selection := some [(field, .marker included)]
  project := some project
  joins := []
  unwind := none
  page := 1
  limit := 20
  textSearch := true

theorem compile_eq {fields field : String} {project : Document}
    (hoptions : ∀ option ∈ [("$q", some "rust"), ("$fields", some fields), ("$getAllFields", none),
      ("$page", none), ("$limit", none), ("$sort", none), ("$search", none), ("$unwind", none)],
        Compiler.option? (search fields) option.1 = option.2)
    (htokens : tokens fields = .ok [.key field, .key "secret"]) (hfield : field ≠ "secret")
    (hplain : Path.Plain field) (hjoins : compiler.planJoins [(field, .marker included)] = .ok [])
    (hproject : compiler.projectDocument (some [(field, .marker included)]) [] true = some project) :
    (store.querier catalog "posts").compile (search fields) = .ok (query field project) := by
  simp only [List.forall_mem_cons] at hoptions
  obtain ⟨hsearch, hfields, hall, hnone⟩ := hoptions
  have hnew : Compiler.new catalog "posts" = .ok compiler := by
    show (do .ok ⟨catalog, "posts", collection, ← collection.protectedSelection⟩ :
      Except QueryError Compiler) = _
    rw [protectedSelection_eq]
    rfl
  have hstandard : compiler.collection.options =
      { Options.standard with protectedFields := some "secret" } := rfl
  have hread : Selection.read included fields =
      .ok [(field, .marker included), ("secret", .marker included)] := by
    rw [Selection.read, htokens]
    show build included [] [] [.key field, .key "secret"] = _
    simp [build, mergeEntry_eq, Keyed.adjust, unionWith, hfield]
  have hwithout : Selection.without [(field, .marker included), ("secret", .marker included)] hidden =
      [(field, .marker included)] := by
    have hsecret : reach hidden ["secret"] = .covered := by simp [reach, hidden]
    have hother : reach hidden [field] = .outside := by
      simp [reach, hidden, List.lookup_cons, beq_eq_false_iff_ne.2 hfield]
    rw [without, canonical_hidden, prunedEntries, prunedEntries, prunedEntries,
      Path.ofText_of_plain hplain, Path.ofText_of_plain (by decide), hother, hsecret]
    rfl
  have hselection : compiler.selectionOf (search fields) = .ok (some [(field, .marker included)]) := by
    unfold Compiler.selectionOf Compiler.wantsAllFields
    simp only [hstandard, Options.standard, hfields, hall, Option.some_or, readOrError, hread]
    rw [← hwithout]
    rfl
  have hfilter : (search fields).foldl compiler.addPair .empty = .empty := by rfl
  rw [Querier.compile, hnew, Outcome.ok_bind, Compiler.compile, hselection, Outcome.ok_bind]
  simp only [hstandard, Options.standard, hsearch, hnone, Compiler.filterOf, Compiler.unwindOf,
    Compiler.positive?, hfilter]
  rw [hjoins, query, ← hproject]
  rfl

def titleQuery : Query := query "title" [("title", .int32 1), ("score", Projection.relevanceFlag)]

def scoreQuery : Query := query "score" [("score", Projection.relevanceFlag)]

theorem compile_title : (store.querier catalog "posts").compile (search "title secret") =
    .ok titleQuery :=
  compile_eq (by decide +kernel) (by decide +kernel) (by decide) (by decide) rfl rfl

theorem compile_score : (store.querier catalog "posts").compile (search "score secret") =
    .ok scoreQuery :=
  compile_eq (by decide +kernel) (by decide +kernel) (by decide) (by decide) rfl rfl

theorem find_title : ((store.querier catalog "posts").find (search "title secret") []).run.run =
    .ok [[("_id", .int32 1), ("title", .string "rust"), ("score", Projection.scoreValue 1)]] := by
  have hprepare : ((store.querier catalog "posts").prepare (search "title secret")).run.run =
      .ok (titleQuery, []) := Querier.prepare_eq_ok_iff.2 ⟨compile_title, rfl⟩
  exact Querier.find_eq_ok_iff.2 ⟨titleQuery, [], hprepare, _, rfl, rfl⟩

theorem find_score : ((store.querier catalog "posts").find (search "score secret") []).run.run =
    .ok [post ++ [("score", Projection.scoreValue 1)]] := by
  have hprepare : ((store.querier catalog "posts").prepare (search "score secret")).run.run =
      .ok (scoreQuery, []) := Querier.prepare_eq_ok_iff.2 ⟨compile_score, rfl⟩
  exact Querier.find_eq_ok_iff.2 ⟨scoreQuery, [], hprepare, _, rfl, rfl⟩

theorem leaves_title : leaves [("title", .marker included)] = [["title"]] := by
  rw [leaves, Path.ofText_of_plain (by decide)]
  rfl

/-- The secret is hidden from a text search that selects the title, although it is selected, too. -/
theorem protected_hidden_from_title_search :
    ∃ docs, ((store.querier catalog "posts").find (search "title secret") []).run.run = .ok docs ∧
      docs.map Document.keys = [["_id", "title", "score"]] ∧ Path.Hidden docs ["secret"] := by
  obtain ⟨_, _, -, -, hfields, -⟩ := Querier.protected_hidden_iff wellKeyed_store rfl
    protectedSelection_eq compile_title (.inl find_title)
  refine ⟨_, find_title, rfl, (hfields ["secret"] ?_ (by decide) (by decide)).2 ?_⟩
  · rw [leaves_hidden]
    exact List.mem_cons_self
  · rintro ⟨-, _, ⟨⟩, honly⟩
    rw [ScoreOnly, leaves_title] at honly
    exact absurd (honly.2 ["title"] List.mem_cons_self) (by decide)

/-- The secret is shown to a text search that selects the relevance and the secret. -/
theorem secret_shown_to_score_search :
    catalog.find? "posts" = some collection ∧ collection.protectedSelection = .ok hidden ∧
      ["secret"] ∈ leaves hidden ∧
      ∃ doc, ((store.querier catalog "posts").find (search "score secret") []).run.run = .ok [doc] ∧
        Path.candidates doc ["secret"] = [.string "x"] := by
  refine ⟨rfl, protectedSelection_eq, ?_, _, find_score, rfl⟩
  rw [leaves_hidden]
  exact List.mem_cons_self

end RustPosts

end DocQuery
