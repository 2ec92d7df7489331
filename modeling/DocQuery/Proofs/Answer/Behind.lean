import DocQuery.Proofs.Answer.Accepted
import DocQuery.Proofs.Answer.Pointwise
import DocQuery.Proofs.Query.ForeignKeys
import DocQuery.Proofs.Store.Kept
import DocQuery.Proofs.Store.Ordering

/-!
# What stands behind a reference

`Store.valueBehind` is the value that a path behind a reference means: what stands at its end in the stored
document that is referred to.  A joined document has this value if the joins of the query bring it, and
nothing if they do not (`Query.Fetched.valueAt_joined`): the projection stage keeps the fields of the joins
(`Compiler.Means.projects_join`), and each join puts in the stored document, cut down to what it takes
(`Join.get_documentFor`).
-/

namespace DocQuery

open Selection

/-! ### The value behind a reference -/

/-- The value that a path has in the stored document that another one refers to: null if there is no such
document, or nothing at the path in it. -/
def Store.valueBehind (store : Store) (c : Collection) (path : String) (doc : Document) : Value :=
  (do
    let (field, name, rest) ← c.foreign? path
    let id ← Path.get doc (Path.ofText field)
    let target ← store.find? name
    let other ← target.documentWith id
    Path.get other (Path.ofText rest)).getD .null

theorem Store.valueBehind_of_foreign (store : Store) {c : Collection} {path field name rest : String}
    {doc : Document} (h : c.foreign? path = some (field, name, rest)) :
    store.valueBehind c path doc = ((Path.get doc (Path.ofText field)).bind fun id =>
      (store.find? name).bind fun target => (target.documentWith id).bind fun other =>
        Path.get other (Path.ofText rest)).getD .null := by
  rw [valueBehind, h]
  rfl

/-- Documents refer to others by ids, and have values behind the reference that can be sorted by. -/
structure Store.Refers (store : Store) (c : Collection) (docs : List Document) (path : String) :
    Prop where
  named : ∀ field name rest, c.foreign? path = some (field, name, rest) →
    ∀ target, store.find? name = some target → target.NamedByIds
  holds : ∀ field name rest, c.foreign? path = some (field, name, rest) →
    ∀ doc ∈ docs, ∀ value ∈ Path.candidates doc (Path.ofText field),
      value.IsId ∨ value = .null ∨ ∃ ids, value = .array ids ∧ ∀ id ∈ ids, id.IsId
  sortable : ∀ doc ∈ docs, (store.valueBehind c path doc).IsSortable

/-! ### What a join puts in -/

namespace StoredCollection

variable {target : StoredCollection} {id : Value}

theorem documentWith_eq_none (h : target.NamedByIds)
    (hid : id = .null ∨ ∃ ids, id = .array ids) : target.documentWith id = none := by
  rw [documentWith, List.find?_eq_none]
  intro doc hdoc
  rw [List.mem_reverse] at hdoc
  cases hget : doc.get? "_id" with
  | none => simp
  | some own =>
    have hown := h doc hdoc own hget
    rcases hid with rfl | ⟨ids, rfl⟩ <;> cases hown <;> simp [Value.equals, Value.same, Value.asDouble?]

end StoredCollection

namespace Join

variable {store : Store} {docs : List Document} {join : Join} {doc : Document} {rest : Path}

/-- What stands behind the field of a join is what stands in the document that the join puts there. -/
theorem inside_change (htargets : ∀ target, store.find? join.collection = some target → target.NamedByIds)
    (hwritten : Fits (written included) join.selection) (hholds : HoldsIds docs join)
    (hanswer : idsIn docs join.field ≠ [] → ∃ got, answer store docs join = .ok got)
    (hdoc : doc ∈ docs) {value : Value}
    (hvalue : value ∈ Path.candidates doc (Path.ofText join.field)) (hrest : rest ≠ []) :
    ((change store docs join value).bind fun new => Path.inside new rest) =
      (documentFor store join value).bind fun other => Path.get other rest := by
  obtain ⟨key, rest, rfl⟩ := List.exists_cons_of_ne_nil hrest
  cases htarget : store.find? join.collection with
  | none =>
    -- nothing can be fetched, so there are no ids
    have hids : idsIn docs join.field = [] := by
      by_contra hne
      obtain ⟨got, hgot⟩ := hanswer hne
      have hmissing : answer store docs join = .error (.collectionNotFound join.collection) := by
        show store.execute _ _ = _
        rw [Store.execute, htarget]
      rw [hmissing] at hgot
      cases hgot
    have hdocument : documentFor store join value = none := by rw [documentFor, htarget]; rfl
    rw [change, if_pos hids, hdocument]
    rcases hholds doc hdoc value hvalue with hid | rfl | ⟨ids, rfl, -⟩
    · exact absurd hids ((idsIn_ne_nil_iff hholds).2 ⟨doc, hdoc, value, hvalue, hid⟩)
    · rfl
    · rfl
  | some target =>
    have hnamed := htargets target htarget
    rw [change_eq_replaced htarget hnamed hwritten hholds hdoc hvalue]
    rcases hholds doc hdoc value hvalue with hid | rfl | ⟨ids, rfl, -⟩
    · have hreplaced : replaced store join value = (documentFor store join value).map .document := by
        cases hid <;> rfl
      rw [hreplaced, Option.bind_map]
      rfl
    · have hnone := StoredCollection.documentWith_eq_none hnamed (.inl (rfl : Value.null = .null))
      simp only [documentFor, htarget, hnone, Option.bind_some, Option.bind_none, bind]
      rfl
    · have hnone := StoredCollection.documentWith_eq_none hnamed (.inr ⟨ids, rfl⟩)
      simp only [documentFor, htarget, hnone, Option.bind_some, Option.bind_none, bind]
      rfl

theorem covers_orId {tree : Selection} {path : Path} (h : Covers tree path) :
    Covers (orId tree) path := by
  rw [orId, if_neg]
  · exact h
  · intro hempty
    obtain rfl := List.isEmpty_iff.1 hempty
    obtain ⟨leaf, hleaf, -⟩ := h
    cases hleaf

theorem covers_of_orId {tree : Selection} {path : Path} (h : Covers (orId tree) path) :
    path.head? = some "_id" ∨ Covers tree path := by
  obtain ⟨leaf, hleaf, tail, rfl⟩ := h
  rcases mem_leaves_orId hleaf with hleaf | rfl
  · exact .inr ⟨leaf, hleaf, List.prefix_append _ _⟩
  · exact .inl rfl

open Classical in
/-- The projection of a join keeps a scalar if the join takes it. -/
theorem get_projected (hwritten : Fits (written included) join.selection) (rest : Path)
    (hscalar : ∀ value, Path.get doc rest = some value → value.IsScalar) :
    ((Projection.project 0 doc join.projection).toOption.bind fun other => Path.get other rest) =
      if join.Takes rest then Path.get doc rest else none := by
  have hnested := nested_orId (nested_canonical join.selection)
  have hfits := fits_orId (fits_canonical hwritten)
  have hasks := join.asks_projection
  rw [project_eq_take hwritten]
  show Path.get (Projection.take 0 doc join.projection) rest = _
  split
  · next htakes =>
    have hcovers := htakes.imp_right fun h => covers_orId (covers_canonical h)
    exact (hasks.get_take_of_covers hnested (by simp) hfits hcovers doc).1
  · next hnot =>
    rw [Takes, not_or] at hnot
    refine hasks.get_take_of_not_covers hnested (by simp) hfits hnot.1 (fun h => ?_) hscalar
    rcases covers_of_orId h with hid | hcovers
    · exact hnot.1 hid
    · exact hnot.2 (covers_canonical_iff.1 hcovers)

open Classical in
/-- What stands in the document of a join is what stands in the one that is referred to, if the join takes
it. -/
theorem get_documentFor (hwritten : Fits (written included) join.selection) (rest : Path) (id : Value)
    (hscalar : ∀ value, ((store.find? join.collection).bind fun target =>
      (target.documentWith id).bind fun other => Path.get other rest) = some value → value.IsScalar) :
    ((documentFor store join id).bind fun other => Path.get other rest) =
      if join.Takes rest then (store.find? join.collection).bind fun target =>
        (target.documentWith id).bind fun other => Path.get other rest
      else none := by
  rw [documentFor]
  cases htarget : store.find? join.collection with
  | none => exact (ite_self _).symm
  | some target =>
    cases hother : target.documentWith id with
    | none => simp [hother]
    | some other =>
      rw [htarget, Option.bind_some, hother, Option.bind_some] at hscalar
      simp only [Option.bind_some, bind, hother]
      exact get_projected hwritten rest hscalar

end Join

/-! ### What the projection stage leaves of references -/

/-- A document of the page is a row after the projection stage of the query. -/
def Query.Projects (query : Query) (row : Row) (doc : Document) : Prop :=
  match query.project with
  | none => doc = row.doc
  | some body => Projection.project row.relevance row.doc body = .ok doc

namespace Compiler.Means

variable {c : Compiler} {request : Request} {query : Query} {row : Row} {doc : Document} {path : Path}

/-- The fields of the joins come through the projection stage. -/
theorem projects_join (h : c.Means request query) (hproject : query.Projects row doc) {join : Join}
    (hjoin : join ∈ query.joins)
    (hscore : query.textSearch = true → (Path.ofText join.field).head? ≠ some scoreField) :
    Path.get doc (Path.ofText join.field) = Path.get row.doc (Path.ofText join.field) ∧
      Path.candidates doc (Path.ofText join.field) =
        Path.candidates row.doc (Path.ofText join.field) := by
  cases hselection : query.selection with
  | none => simp [h.joinsOfNone hselection] at hjoin
  | some selection =>
    have hselects := h.selects hselection
    obtain ⟨body, hbody, hasks⟩ := h.exists_body_of_some hselection
    rw [Query.Projects, hbody] at hproject
    have hcovers : Covers (taken selection query.joins) (Path.ofText join.field) :=
      Join.covers_orId ((covers_marked_iff (nested_canonical selection)).2
        (.inr ⟨join, hjoin, List.prefix_refl _⟩))
    exact hasks.project_of_covers (nested_taken selection query.joins) hscore
      (fits_taken hselects.written hselects.planned) hcovers hproject

/-- The projection stage puts no value where there was none. -/
theorem projects_none (h : c.Means request query)
    (hprotected : c.collection.protectedSelection = .ok c.protectedFields)
    (hproject : query.Projects row doc) (hkeyed : row.doc.WellKeyed)
    (hscore : query.textSearch = true → path.head? ≠ some scoreField)
    (hnone : Path.get row.doc path = none) : Path.get doc path = none := by
  cases hbody : query.project with
  | none =>
    rw [Query.Projects, hbody] at hproject
    rwa [hproject]
  | some body =>
    rw [Query.Projects, hbody] at hproject
    obtain ⟨m, tree, hasks, hwritten, hnested⟩ := h.exists_asks hprotected hbody
    exact hasks.get_project_eq_none hnested hscore hwritten hkeyed hproject hnone

end Compiler.Means

theorem Compiler.Means.isFirstReference {c : Compiler} {request : Request} {query : Query}
    (h : c.Means request query) {join : Join} (hjoin : join ∈ query.joins) :
    c.collection.IsFirstReference (Path.ofText join.field) := by
  cases hselection : query.selection with
  | none => simp [h.joinsOfNone hselection] at hjoin
  | some selection => exact ((h.selects hselection).planned.each join hjoin).reference

/-- A join at a reference is for the collection that is declared there. -/
theorem Compiler.Means.collection_of_foreign {c : Compiler} {request : Request} {query : Query}
    (h : c.Means request query) {join : Join} (hjoin : join ∈ query.joins) {path name rest : String}
    (hforeign : c.collection.foreign? path = some (join.field, name, rest)) :
    join.collection = name := by
  obtain ⟨-, -, info, hinfo, htarget⟩ := Collection.foreign?_eq_some hforeign
  obtain ⟨again, hagain, hcollection, -⟩ := h.declared join hjoin
  obtain rfl : info = again := Option.some.inj (hinfo.symm.trans hagain)
  exact Option.some.inj (hcollection.symm.trans htarget)

/-! ### Joined documents -/

/-- What the joins of a query make of a document of a page. -/
def Query.joinedBy (query : Query) (store : Store) (found : List Document) : Document → Document :=
  Path.updateAll (Join.changesBy (Join.change store found) query.joins)

/-- Rows become the documents of a page, and the joins of the page are fetched. -/
structure Query.Fetched (store : Store) (query : Query) (rows : List Row) (found : List Document) :
    Prop where
  keyed : Row.AllWellKeyed rows
  projects : List.Forall₂ query.Projects rows found
  apart : query.joins.Pairwise fun join other =>
    Path.Apart (Path.ofText join.field) (Path.ofText other.field)
  written : ∀ join ∈ query.joins, Fits (Selection.written included) join.selection
  answers : ∀ join ∈ query.joins, Join.idsIn found join.field ≠ [] →
    ∃ got, Join.answer store found join = .ok got

namespace Query.Fetched

variable {store : Store} {c : Compiler} {request : Request} {query : Query} {rows : List Row}
  {found : List Document} {row : Row} {doc : Document} {path field name rest : String} {join : Join}

theorem wellKeyed (h : query.Fetched store rows found) (hpair : (row, doc) ∈ rows.zip found) :
    row.doc.WellKeyed ∧ doc.WellKeyed := by
  have hrow := h.keyed row (List.of_mem_zip hpair).1
  refine ⟨hrow, ?_⟩
  have hproject := List.forall₂_zip h.projects hpair
  rw [Query.Projects] at hproject
  split at hproject
  · rwa [hproject]
  · exact Projection.wellKeyed_project hrow hproject

/-- In the fields of the joins stand ids, as they do in the rows. -/
theorem holdsIds (h : query.Fetched store rows found) (hmeans : c.Means request query)
    (hforeign : c.collection.foreign? path = some (join.field, name, rest))
    (hrefers : store.Refers c.collection (rows.map Row.doc) path)
    (hscore : query.textSearch = true → (Path.ofText join.field).head? ≠ some scoreField)
    (hjoin : join ∈ query.joins) : join.HoldsIds found := by
  intro doc hdoc value hvalue
  obtain ⟨row, hrow, hproject⟩ := Outcome.exists_of_forall₂ h.projects hdoc
  rw [(hmeans.projects_join hproject hjoin hscore).2] at hvalue
  exact hrefers.holds _ name rest hforeign _ (List.mem_map_of_mem hrow) value hvalue

/-- Behind the field of a join stands what the join takes of the document that is referred to. -/
theorem get_joined_of_join (h : query.Fetched store rows found) (hstore : store.WellKeyed)
    (hmeans : c.Means request query)
    (hforeign : c.collection.foreign? path = some (join.field, name, rest))
    (hrefers : store.Refers c.collection (rows.map Row.doc) path)
    (hscore : query.textSearch = true → (Path.ofText path).head? ≠ some scoreField)
    (hjoin : join ∈ query.joins) (hpair : (row, doc) ∈ rows.zip found) :
    Path.get (query.joinedBy store found doc) (Path.ofText path) =
      (Path.get row.doc (Path.ofText join.field)).bind fun id =>
        (Join.documentFor store join id).bind fun other => Path.get other (Path.ofText rest) := by
  obtain ⟨-, hpath, -⟩ := Collection.foreign?_eq_some hforeign
  have hne := Path.ofText_ne_nil join.field
  rw [hpath, List.head?_append_of_ne_nil _ hne] at hscore
  have hprojects := hmeans.projects_join (List.forall₂_zip h.projects hpair) hjoin hscore
  have hmem : (Path.ofText join.field, Join.change store found join) ∈
      Join.changesBy (Join.change store found) query.joins := List.mem_map_of_mem hjoin
  have hnamed := hrefers.named _ name rest hforeign
  rw [← hmeans.collection_of_foreign hjoin hforeign] at hnamed
  have hapart : Path.AllApart (Join.changesBy (Join.change store found) query.joins) :=
    List.pairwise_map.2 h.apart
  rw [hpath, Path.get_append hne, Query.joinedBy, Path.get_updateAll_self hapart hmem hne (h.wellKeyed hpair).2,
    Option.bind_assoc, hprojects.1]
  · refine Option.bind_congr fun value hvalue => ?_
    refine Join.inside_change hnamed (h.written join hjoin)
      (h.holdsIds hmeans hforeign hrefers hscore hjoin) (h.answers join hjoin)
      (List.of_mem_zip hpair).2 ?_ (Path.ofText_ne_nil rest)
    rw [hprojects.2]
    exact Path.mem_candidates_of_get hvalue
  · exact List.forall_mem_map.2 fun join _ value new hvalue hnew =>
      Join.wellKeyed_change hstore hvalue hnew

/-- Without a join at its field nothing stands behind a reference. -/
theorem get_joined_of_no_join (h : query.Fetched store rows found)
    (hmeans : c.Means request query)
    (hprotected : c.collection.protectedSelection = .ok c.protectedFields)
    (hforeign : c.collection.foreign? path = some (field, name, rest))
    (hrefers : store.Refers c.collection (rows.map Row.doc) path)
    (hscore : query.textSearch = true → (Path.ofText path).head? ≠ some scoreField)
    (hno : ∀ join ∈ query.joins, join.field ≠ field) (hpair : (row, doc) ∈ rows.zip found) :
    Path.get (query.joinedBy store found doc) (Path.ofText path) = none := by
  obtain ⟨hfirst, hpath, -⟩ := Collection.foreign?_eq_some hforeign
  have hne := Path.ofText_ne_nil field
  have hapart : ∀ fill ∈ Join.changesBy (Join.change store found) query.joins,
      Path.Apart fill.1 (Path.ofText path) := by
    refine List.forall_mem_map.2 fun join hjoin => ?_
    have hfields : Path.ofText join.field ≠ Path.ofText field := fun e =>
      hno join hjoin (Path.ofText_injective e)
    have hjoined := (hmeans.isFirstReference hjoin).eq_or_apart hfirst (Path.ofText_ne_nil _) hne
    rw [hpath]
    exact (hjoined.resolve_left hfields).of_longer (List.prefix_append _ _)
  rw [Query.joinedBy, Path.get_updateAll_of_apart hapart]
  have hproject := List.forall₂_zip h.projects hpair
  refine hmeans.projects_none hprotected hproject (h.wellKeyed hpair).1 hscore ?_
  rw [hpath, Path.get_append hne, Option.bind_eq_none_iff]
  intro value hvalue
  obtain ⟨key, below, hrest⟩ := List.exists_cons_of_ne_nil (Path.ofText_ne_nil rest)
  rw [hrest]
  have hmem : row.doc ∈ rows.map Row.doc := List.mem_map_of_mem (List.of_mem_zip hpair).1
  rcases hrefers.holds field name rest hforeign _ hmem value (Path.mem_candidates_of_get hvalue) with
    hid | rfl | ⟨ids, rfl, -⟩
  · cases hid <;> rfl
  · rfl
  · rfl

/-- The join at the field of a reference decides whether it is brought what stands behind it. -/
theorem brings_iff (h : query.Fetched store rows found) {collection : Collection}
    (hforeign : collection.foreign? path = some (join.field, name, rest))
    (hjoin : join ∈ query.joins) :
    query.Brings collection path ↔ join.Takes (Path.ofText rest) := by
  have hdistinct : (query.joins.map Join.field).Nodup := by
    refine List.pairwise_map.2 (h.apart.imp fun hapart e => hapart.1 ?_)
    exact e ▸ List.prefix_refl _
  constructor
  · rintro ⟨_, _, _, hagain, other, hother, hfield, htakes⟩
    obtain ⟨rfl, -, rfl⟩ : join.field = _ ∧ name = _ ∧ rest = _ := by
      simpa using hforeign.symm.trans hagain
    rwa [← List.inj_on_of_nodup_map hdistinct hother hjoin hfield]
  · exact fun htakes => ⟨_, name, rest, hforeign, join, hjoin, rfl, htakes⟩

open Classical in
/-- At a path behind a reference a joined document has the value that is meant if the joins of the query
bring it, and null if they do not. -/
theorem valueAt_joined (h : query.Fetched store rows found) (hstore : store.WellKeyed)
    (hmeans : c.Means request query)
    (hprotected : c.collection.protectedSelection = .ok c.protectedFields)
    (hforeign : c.collection.foreign? path = some (field, name, rest))
    (hrefers : store.Refers c.collection (rows.map Row.doc) path)
    (hscore : query.textSearch = true → (Path.ofText path).head? ≠ some scoreField)
    (hpair : (row, doc) ∈ rows.zip found) :
    Document.valueAt path (query.joinedBy store found doc) =
      if query.Brings c.collection path then store.valueBehind c.collection path row.doc
      else .null := by
  by_cases hjoin : ∃ join ∈ query.joins, join.field = field
  · obtain ⟨join, hjoin, rfl⟩ := hjoin
    have hget := h.get_joined_of_join hstore hmeans hforeign hrefers hscore hjoin hpair
    rw [Document.valueAt, hget]
    simp only [h.brings_iff hforeign hjoin]
    have hbehind : store.valueBehind c.collection path row.doc = _ :=
      store.valueBehind_of_foreign hforeign
    have hsortable := hrefers.sortable _ (List.mem_map_of_mem (List.of_mem_zip hpair).1)
    rw [hbehind] at hsortable ⊢
    rw [← hmeans.collection_of_foreign hjoin hforeign] at hsortable ⊢
    cases hid : Path.get row.doc (Path.ofText join.field) with
    | none => exact (ite_self _).symm
    | some id =>
      rw [hid, Option.bind_some] at hsortable
      rw [Option.bind_some, Option.bind_some, Join.get_documentFor (h.written join hjoin) _ id]
      · split <;> rfl
      · intro value hvalue
        rw [hvalue] at hsortable
        exact hsortable.isScalar
  · have hno : ∀ join ∈ query.joins, join.field ≠ field := fun join hmem e => hjoin ⟨join, hmem, e⟩
    rw [Document.valueAt,
      h.get_joined_of_no_join hmeans hprotected hforeign hrefers hscore hno hpair, if_neg]
    · rfl
    · rintro ⟨_, _, _, hagain, join, hmem, hfield, -⟩
      rw [hforeign, Option.some.injEq, Prod.mk.injEq] at hagain
      exact hno join hmem (hfield.trans hagain.1.symm)

end Query.Fetched

end DocQuery
