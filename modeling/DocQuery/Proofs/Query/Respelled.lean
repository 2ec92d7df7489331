import DocQuery.Proofs.Query.Asked
import DocQuery.Proofs.Query.Compiled
import DocQuery.Proofs.Query.Projected
import DocQuery.Proofs.Selection.Spelling
import Mathlib.Data.List.Infix
import Mathlib.Data.List.Nodup

/-!
# Spellings and queries

Two spellings of a selection may have different leaves, since of a path and one behind it the second
may have been merged into the first.  That is harmless for the query, unless a field behind the first
path is protected, or the second one leads through a reference that the first one does not go behind
(`Compiler.Harmless`).  If it is harmless for all paths that are named, then both spellings mean queries
that take the same fields and have the same joins (`Compiler.compile_respelled`).
-/

namespace DocQuery

open Selection

/-! ### The fields that a query takes -/

/-- The paths of the fields in the projection stage of a query. -/
def Query.projectPaths (query : Query) : List Path := flagPathsOf (query.project.getD [])

/-- Bodies that ask for selections with the same leaves have their flags at the same paths. -/
theorem mem_flagPathsOf_congr {tree other : Selection} {scored : Bool} {body body' : Document}
    (h : Projection.Asks tree scored body) (h' : Projection.Asks other scored body')
    (htree : Nested tree) (hother : Nested other)
    (hleaves : ∀ path, path ∈ leaves tree ↔ path ∈ leaves other) (path : Path) :
    path ∈ flagPathsOf body ↔ path ∈ flagPathsOf body' := by
  rw [mem_flagPathsOf_iff h.distinct, mem_flagPathsOf_iff h'.distinct]
  simp only [h.mem_flagPaths_iff htree, h'.mem_flagPaths_iff hother, hleaves]

/-! ### Leaves that were merged away -/

/-- The collection whose ids a field is declared to hold. -/
def Collection.Targets (c : Collection) (field : Path) (name : String) : Prop :=
  ∃ info, c.fields.lookup (Path.text field) = some info ∧ info.target = some name

namespace Compiler

/-- To take the field `whole` instead of `part`, which lies behind it, makes no difference. -/
structure Harmless (c : Compiler) (whole part : Path) : Prop where
  /-- no field behind `whole` is protected -/
  unprotected : ∀ taken ∈ leaves c.protectedFields, whole <+: taken → taken = whole
  /-- `part` does not lead through a first reference at `whole` or behind it -/
  unjoined : ∀ field, c.collection.IsFirstReference field → field <+: part → field ≠ part →
    ¬whole <+: field
  /-- behind a first reference, no field behind the rest of `whole` is protected -/
  unprotectedThere : ∀ field rest name, c.collection.IsFirstReference field → whole = field ++ rest →
    c.collection.Targets field name → ∀ taken, c.catalog.Protects name taken → rest <+: taken →
      taken = rest

/-- What one selection has leaves for, the other one covers, without harm. -/
structure Follows (c : Compiler) (one two : Selection) : Prop where
  covered : ∀ leaf ∈ leaves one, Covers two leaf
  harmless : ∀ whole ∈ leaves two, ∀ part ∈ leaves one, whole <+: part → whole ≠ part →
    c.Harmless whole part

variable {c : Compiler} {one two : Selection}

theorem Follows.covers (h : c.Follows one two) {path : Path} (hpath : Covers one path) :
    Covers two path := by
  obtain ⟨leaf, hleaf, hbegin⟩ := hpath
  exact (h.covered leaf hleaf).of_longer hbegin

/-- A path that is apart from what is taken away, in front of another one or equal to it. -/
theorem apart_of_front {front leaf taken : Path} (hapart : Path.Apart leaf taken)
    (hfront : front <+: leaf) (htaken : front <+: taken → front ≠ leaf → taken = front) :
    Path.Apart front taken := by
  constructor
  · intro hbegin
    by_cases hsame : front = leaf
    · exact hapart.1 (hsame ▸ hbegin)
    · exact hapart.2 (htaken hbegin hsame ▸ hfront)
  · exact fun hbegin => hapart.2 (hbegin.trans hfront)

/-- What is left of two spellings of a selection follows each other. -/
theorem follows_without {s t : String} {items others : List Item}
    (hprotected : Fits (written excluded) c.protectedFields)
    (hs : Spells s items) (ht : Spells t others)
    (hpaths : ∀ path, path ∈ pathsOf items ↔ path ∈ pathsOf others)
    (hharmless : ∀ whole ∈ pathsOf items, ∀ part ∈ pathsOf items, whole <+: part → whole ≠ part →
      c.Harmless whole part)
    (hone : read included s = .ok one) (htwo : read included t = .ok two) :
    c.Follows (one.without c.protectedFields) (two.without c.protectedFields) where
  covered leaf hleaf := by
    obtain ⟨hleaf, hapart⟩ := (mem_leaves_without_iff hprotected).1 hleaf
    have hnamed := mem_leaves_read hs hone hleaf
    obtain ⟨front, hfront, hbegin⟩ := covers_read ht htwo ((hpaths leaf).1 hnamed)
    have hfrontNamed := (hpaths front).2 (mem_leaves_read ht htwo hfront)
    refine ⟨front, (mem_leaves_without_iff hprotected).2 ⟨hfront, fun taken htaken => ?_⟩, hbegin⟩
    refine apart_of_front (hapart taken htaken) hbegin fun hprefix hne => ?_
    exact (hharmless front hfrontNamed leaf hnamed hbegin hne).unprotected taken htaken hprefix
  harmless whole hwhole part hpart := by
    have hwholeNamed := mem_leaves_read ht htwo (mem_leaves_without hwhole)
    have hpartNamed := mem_leaves_read hs hone (mem_leaves_without hpart)
    exact hharmless whole ((hpaths whole).2 hwholeNamed) part hpartNamed

end Compiler

/-! ### Joins -/

namespace Join

/-- Joins of the same field with documents of the same collection, of which both take the same
fields. -/
structure Alike (join other : Join) : Prop where
  field : join.field = other.field
  collection : join.collection = other.collection
  many : join.many = other.many
  leaves : ∀ path, path ∈ leaves join.selection.canonical ↔ path ∈ leaves other.selection.canonical

/-- Joins that are alike one by one, in some order. -/
def AllAlike (joins others : List Join) : Prop :=
  ∃ sorted, sorted.Perm others ∧ List.Forall₂ Alike joins sorted

theorem fields_eq_of_alike {joins sorted : List Join} (h : List.Forall₂ Alike joins sorted) :
    joins.map Join.field = sorted.map Join.field := by
  rw [← List.forall₂_eq_eq_eq, List.forall₂_map_left_iff, List.forall₂_map_right_iff]
  exact h.imp fun _ _ h => h.field

/-- Joins at different fields are alike if each has one that is like it among the others. -/
theorem allAlike_of {joins others : List Join} (hjoins : (joins.map Join.field).Nodup)
    (hothers : (others.map Join.field).Nodup) (h : ∀ join ∈ joins, ∃ other ∈ others, Alike join other)
    (h' : ∀ other ∈ others, ∃ join ∈ joins, Alike other join) : AllAlike joins others := by
  obtain ⟨sorted, hsorted⟩ : ∃ sorted, List.Forall₂ (fun join other => other ∈ others ∧
      Alike join other) joins sorted := by
    clear hjoins h'
    induction joins with
    | nil => exact ⟨[], .nil⟩
    | cons join rest ih =>
      rw [List.forall_mem_cons] at h
      obtain ⟨other, hother, halike⟩ := h.1
      obtain ⟨sorted, hsorted⟩ := ih h.2
      exact ⟨other :: sorted, .cons ⟨hother, halike⟩ hsorted⟩
  have hfields := fields_eq_of_alike (hsorted.imp fun _ _ h => h.2)
  refine ⟨sorted, ?_, hsorted.imp fun _ _ h => h.2⟩
  rw [List.perm_ext_iff_of_nodup (List.Nodup.of_map _ (hfields ▸ hjoins)) (List.Nodup.of_map _ hothers)]
  intro other
  constructor
  · intro hother
    obtain ⟨_, -, hmem, -⟩ := Outcome.exists_of_forall₂ hsorted hother
    exact hmem
  · intro hother
    obtain ⟨join, hjoin, halike⟩ := h' other hother
    obtain ⟨found, hfound, hfield⟩ : ∃ found ∈ sorted, found.field = other.field := by
      rw [← List.mem_map, ← hfields, halike.field]
      exact List.mem_map_of_mem hjoin
    obtain ⟨_, -, hmem, -⟩ := Outcome.exists_of_forall₂ hsorted hfound
    exact List.inj_on_of_nodup_map hothers hmem hother hfield ▸ hfound

theorem AllAlike.mem_fields_iff {joins others : List Join} (h : AllAlike joins others)
    (field : String) : field ∈ joins.map Join.field ↔ field ∈ others.map Join.field := by
  obtain ⟨sorted, hperm, halike⟩ := h
  rw [fields_eq_of_alike halike, (hperm.map Join.field).mem_iff]

theorem Declared.congr {c : Collection} {join other : Join} (h : Declared c join)
    (h' : Declared c other) (hfield : join.field = other.field) :
    join.collection = other.collection ∧ join.many = other.many := by
  obtain ⟨info, hlookup, htarget, hmany⟩ := h
  obtain ⟨info', hlookup', htarget', hmany'⟩ := h'
  rw [hfield, hlookup'] at hlookup
  obtain rfl := Option.some.inj hlookup
  exact ⟨Option.some.inj (htarget.symm.trans htarget'), hmany.symm.trans hmany'⟩

end Join

namespace Compiler

variable {c : Compiler} {one two : Selection}

/-- A join of one selection has its counterpart in each selection that follows. -/
theorem exists_join_of_follows (hone : Fits (written included) one)
    (htwo : Fits (written included) two) (h : c.Follows one two) :
    ∀ join ∈ Join.plan c.collection one, ∃ other ∈ Join.plan c.collection two,
      join.field = other.field ∧ ∀ leaf ∈ leaves join.selection, ∃ front ∈ leaves other.selection,
        front <+: leaf ∧ ∀ taken, c.catalog.Protects join.collection taken → front <+: taken →
          front ≠ leaf → taken = front := by
  intro join hjoin
  have hplanned := (Join.allPlanned_plan c.collection hone).each join hjoin
  have hplan := Join.allPlanned_plan c.collection htwo
  have hasked : ∀ rest, rest ≠ [] → Path.ofText join.field ++ rest ∈ leaves one →
      ∃ front, front <+: rest ∧
        Join.Asked (Join.plan c.collection two) (Path.ofText join.field) front := by
    intro rest hne hrest
    have hask : ∀ front, front ≠ [] → Path.ofText join.field ++ front ∈ leaves two →
        Join.Asked (Join.plan c.collection two) (Path.ofText join.field) front :=
      fun front => Join.asked_plan htwo hplanned.reference (Path.ofText_ne_nil _)
    obtain ⟨whole, hwhole, hbegin⟩ := h.covered _ hrest
    by_cases hsame : whole = Path.ofText join.field ++ rest
    · exact ⟨rest, rest.prefix_refl, hask rest hne (hsame ▸ hwhole)⟩
    · have hnot := (h.harmless whole hwhole _ hrest hbegin hsame).unjoined _ hplanned.reference
        (List.prefix_append _ rest) (by simpa using Ne.symm hne)
      obtain ⟨front, rfl⟩ := (List.prefix_or_prefix_of_prefix hbegin
        (List.prefix_append _ rest)).resolve_left hnot
      refine ⟨front, (List.prefix_append_right_inj _).1 hbegin, hask front ?_ hwhole⟩
      rintro rfl
      exact hnot (by simp)
  obtain ⟨rest, hne, hrest⟩ := hplanned.behind
  obtain ⟨_, -, other, hother, hfield, -⟩ := hasked rest hne hrest
  refine ⟨other, hother, (Path.ofText_injective hfield).symm, fun leaf hleaf => ?_⟩
  have hleafOne := hplanned.wanted leaf hleaf
  obtain ⟨front, hfront, again, hagain, hsame, short, hshort, hbegin⟩ :=
    hasked leaf (ne_nil_of_mem_leaves hleaf) hleafOne
  obtain rfl : again = other := List.inj_on_of_nodup_map hplan.distinct hagain hother
    (Path.ofText_injective (hsame.trans hfield.symm))
  refine ⟨short, hshort, hbegin.trans hfront, fun taken htaken hprefix hdifferent => ?_⟩
  have hshortTwo := (hplan.each again hagain).wanted short hshort
  rw [hsame] at hshortTwo
  have hharmless := h.harmless _ hshortTwo _ hleafOne
    ((List.prefix_append_right_inj _).2 (hbegin.trans hfront)) (by simpa using hdifferent)
  obtain ⟨info, hlookup, htarget, -⟩ := Join.declared_plan c.collection one join hjoin
  refine hharmless.unprotectedThere _ short join.collection hplanned.reference rfl
    ⟨info, ?_, htarget⟩ taken htaken hprefix
  rwa [Path.text_ofText]

/-- What was not taken away of a join is covered by its counterpart. -/
theorem covers_of_strippedFrom {join other new new' : Join} (hnew : StrippedFrom c.catalog join new)
    (hnew' : StrippedFrom c.catalog other new') (hcollection : join.collection = other.collection)
    (hleaves : ∀ leaf ∈ leaves join.selection, ∃ front ∈ leaves other.selection,
      front <+: leaf ∧ ∀ taken, c.catalog.Protects join.collection taken → front <+: taken →
        front ≠ leaf → taken = front)
    {path : Path} (h : Covers new.selection path) : Covers new'.selection path := by
  obtain ⟨leaf, hleaf, hbegin⟩ := h
  obtain ⟨hleaf, hapart⟩ := (hnew.mem_leaves_iff leaf).1 hleaf
  obtain ⟨front, hfront, hprefix, htaken⟩ := hleaves leaf hleaf
  refine ⟨front, (hnew'.mem_leaves_iff front).2 ⟨hfront, fun taken hprotects => ?_⟩,
    hprefix.trans hbegin⟩
  rw [← hcollection] at hprotects
  exact apart_of_front (hapart taken hprotects) hprefix (htaken taken hprotects)

/-- Joins of one field in two selections that follow each other stay alike when they are stripped. -/
theorem alike_of_strip (hone : Fits (written included) one) (htwo : Fits (written included) two)
    (h : c.Follows one two) (h' : c.Follows two one) {join other new new' : Join}
    (hjoin : join ∈ Join.plan c.collection one) (hother : other ∈ Join.plan c.collection two)
    (hfield : join.field = other.field) (hnew : strip c.catalog join = .ok new)
    (hnew' : strip c.catalog other = .ok new') : new.Alike new' := by
  obtain ⟨hsame, hmany⟩ := (Join.declared_plan c.collection one _ hjoin).congr
    (Join.declared_plan c.collection two _ hother) hfield
  have hnew := strippedFrom_of_strip hnew
  have hnew' := strippedFrom_of_strip hnew'
  -- the counterpart of each join is the one at the same field, since there is only one
  obtain ⟨found, hfound, hfoundField, hthere⟩ := exists_join_of_follows hone htwo h join hjoin
  obtain rfl : found = other := List.inj_on_of_nodup_map
    (Join.allPlanned_plan c.collection htwo).distinct hfound hother (hfoundField.symm.trans hfield)
  obtain ⟨back, hback, hbackField, hhere⟩ := exists_join_of_follows htwo hone h' found hother
  obtain rfl : back = join := List.inj_on_of_nodup_map
    (Join.allPlanned_plan c.collection hone).distinct hback hjoin
    (hbackField.symm.trans hfield.symm)
  refine ⟨?_, ?_, ?_, mem_leaves_canonical_congr fun path => ⟨?_, ?_⟩⟩
  · rw [hnew.field, hnew'.field, hfield]
  · rw [hnew.collection, hnew'.collection, hsame]
  · rw [hnew.many, hnew'.many, hmany]
  · exact covers_of_strippedFrom hnew hnew' hsame hthere
  · exact covers_of_strippedFrom hnew' hnew hsame.symm hhere

/-- If the joins of one selection can be stripped, then also those of one that it follows. -/
theorem exists_planJoins_of_follows (hone : Fits (written included) one)
    (htwo : Fits (written included) two) (h' : c.Follows two one) {joins : List Join}
    (hjoins : c.planJoins one = .ok joins) : ∃ others, c.planJoins two = .ok others := by
  rw [planJoins, stripJoins_eq_mapM] at hjoins
  rw [planJoins, stripJoins_eq_mapM, Outcome.exists_mapM_eq_ok_iff]
  intro other hother
  obtain ⟨join, hjoin, hfield, -⟩ := exists_join_of_follows htwo hone h' other hother
  have hsame := ((Join.declared_plan c.collection two _ hother).congr
    (Join.declared_plan c.collection one _ hjoin) hfield).1
  exact (exists_strip_congr hsame).2 (Outcome.exists_mapM_eq_ok_iff.1 ⟨joins, hjoins⟩ join hjoin)

/-- Selections that follow each other have joins that are alike. -/
theorem planJoins_of_follows (hone : Fits (written included) one)
    (htwo : Fits (written included) two) (h : c.Follows one two) (h' : c.Follows two one)
    {joins : List Join} (hjoins : c.planJoins one = .ok joins) :
    ∃ others, c.planJoins two = .ok others ∧ Join.AllAlike joins others := by
  obtain ⟨others, hothers⟩ := exists_planJoins_of_follows hone htwo h' hjoins
  refine ⟨others, hothers, ?_⟩
  have hdistinct := (Join.allPlanned_plan c.collection hone).distinct
  have hdistinctTwo := (Join.allPlanned_plan c.collection htwo).distinct
  have hfields := fields_stripJoins hjoins
  have hfieldsTwo := fields_stripJoins hothers
  rw [planJoins, stripJoins_eq_mapM] at hjoins hothers
  have hstrip : ∀ join ∈ Join.plan c.collection one, ∃ new ∈ joins,
      strip c.catalog join = .ok new := fun join hjoin =>
    Outcome.exists_of_forall₂ (Outcome.mapM_eq_ok_iff.1 hjoins).flip hjoin
  have hstripTwo : ∀ other ∈ Join.plan c.collection two, ∃ new ∈ others,
      strip c.catalog other = .ok new := fun other hother =>
    Outcome.exists_of_forall₂ (Outcome.mapM_eq_ok_iff.1 hothers).flip hother
  refine Join.allAlike_of (hfields ▸ hdistinct) (hfieldsTwo ▸ hdistinctTwo) ?_ ?_
  · intro new hmem
    obtain ⟨join, hjoin, hnew⟩ := Outcome.exists_of_mapM hjoins hmem
    obtain ⟨other, hother, hfield, -⟩ := exists_join_of_follows hone htwo h join hjoin
    obtain ⟨new', hmem', hnew'⟩ := hstripTwo other hother
    exact ⟨new', hmem', alike_of_strip hone htwo h h' hjoin hother hfield hnew hnew'⟩
  · intro new' hmem'
    obtain ⟨other, hother, hnew'⟩ := Outcome.exists_of_mapM hothers hmem'
    obtain ⟨join, hjoin, hfield, -⟩ := exists_join_of_follows htwo hone h' other hother
    obtain ⟨new, hmem, hnew⟩ := hstrip join hjoin
    exact ⟨new, hmem, alike_of_strip htwo hone h' h hother hjoin hfield hnew' hnew⟩

/-! ### Queries -/

/-- Selections that cover the same paths, with joins at the same fields, take the same fields. -/
theorem mem_leaves_taken_congr {joins others : List Join} (hone : Fits (written included) one)
    (htwo : Fits (written included) two) (hcovers : ∀ path, Covers one path ↔ Covers two path)
    (hjoins : Join.AllPlanned c.collection (leaves one) joins)
    (hothers : Join.AllPlanned c.collection (leaves two) others)
    (hfields : ∀ field, field ∈ joins.map Join.field ↔ field ∈ others.map Join.field) (path : Path) :
    path ∈ leaves (taken one joins) ↔ path ∈ leaves (taken two others) := by
  have hfield : ∀ path, (∃ join ∈ joins, Path.ofText join.field <+: path) ↔
      ∃ join ∈ others, Path.ofText join.field <+: path := by
    intro path
    have hmap : ∀ joins : List Join, (∃ join ∈ joins, Path.ofText join.field <+: path) ↔
        ∃ field ∈ joins.map Join.field, Path.ofText field <+: path := by simp
    simp only [hmap, hfields]
  have hleaves : ∀ path, path ∈ leaves (marked one.canonical joins) ↔
      path ∈ leaves (marked two.canonical others) := by
    refine mem_leaves_congr (nested_marked (nested_canonical one))
      (nested_marked (nested_canonical two)) fun path => ?_
    rw [covers_marked_iff (nested_canonical one), covers_marked_iff (nested_canonical two),
      covers_canonical_iff, covers_canonical_iff, hcovers, hfield]
  have hempty : marked one.canonical joins = [] ↔ marked two.canonical others = [] := by
    have hnil : ∀ {tree : Selection}, Fits (written included) tree →
        (tree = [] ↔ ∀ leaf, leaf ∉ leaves tree) := by
      intro tree htree
      constructor
      · rintro rfl
        simp [leaves]
      · intro hnone
        by_contra hne
        obtain ⟨leaf, hleaf⟩ := exists_mem_leaves_of_ne_nil htree hne
        exact hnone leaf hleaf
    rw [hnil (fits_marked_canonical hone hjoins), hnil (fits_marked_canonical htwo hothers)]
    simp only [hleaves]
  rw [taken, taken, orId, orId]
  simp only [List.isEmpty_iff, hempty]
  split
  · rfl
  · exact hleaves path

/-- Queries that take the same fields have them in their projection stage. -/
theorem mem_projectDocument_congr {joins others : List Join} (scored : Bool)
    (h : ∀ path, path ∈ leaves (taken one joins) ↔ path ∈ leaves (taken two others)) (path : Path) :
    path ∈ flagPathsOf ((c.projectDocument (some one) joins scored).getD []) ↔
      path ∈ flagPathsOf ((c.projectDocument (some two) others scored).getD []) := by
  obtain ⟨body, hbody, hasks⟩ := exists_body_of_some c one joins scored
  obtain ⟨body', hbody', hasks'⟩ := exists_body_of_some c two others scored
  rw [hbody, hbody']
  exact mem_flagPathsOf_congr hasks hasks' (nested_taken _ _) (nested_taken _ _) h path

theorem fits_protectedFields {catalog : Catalog} {name : String}
    (h : Compiler.new catalog name = .ok c) : Fits (written excluded) c.protectedFields := by
  unfold Compiler.new at h
  split at h
  · cases h
  · obtain ⟨hidden, hhidden, h⟩ := Outcome.bind_eq_ok_iff.1 h
    obtain rfl := Except.ok.inj h
    exact Collection.fits_protectedSelection hhidden

/-- What a request selects by a text that spells items. -/
theorem selectionOf_of_spells {request : Request} {s : String} {items : List Item}
    (hfields : option? request c.collection.options.fieldsKey = some s) (hs : Spells s items) :
    c.selectionOf request = .ok (if c.wantsAllFields request then none
      else some ((addAll included items []).without c.protectedFields)) := by
  unfold selectionOf
  simp only [hfields, Option.some_or, readOrError, read_of_spells hs]
  split <;> rfl

/-- **Spellings mean the same queries.**  Two requests whose selections differ only in their spelling
take the same fields and have the same joins, in some order and up to the spelling of what they select,
provided that of two named paths, one behind the other, the longer one can be merged into the shorter
one without harm. -/
theorem compile_respelled {catalog : Catalog} {name : String} (hc : Compiler.new catalog name = .ok c)
    {first second : Request} {s t : String} {items others : List Item}
    (hfirst : option? first c.collection.options.fieldsKey = some s)
    (hsecond : option? second c.collection.options.fieldsKey = some t)
    (hother : ∀ key ∈ [c.collection.options.allFieldsKey, c.collection.options.queryKey,
      c.collection.options.sortKey], option? first key = option? second key)
    (hs : Spells s items) (ht : Spells t others) (hrespelled : Respelled items others)
    (hharmless : ∀ whole ∈ pathsOf items, ∀ part ∈ pathsOf items, whole <+: part → whole ≠ part →
      c.Harmless whole part)
    {query : Query} (hquery : c.compile first = .ok query) :
    ∃ other, c.compile second = .ok other ∧
      (∀ path, path ∈ query.projectPaths ↔ path ∈ other.projectPaths) ∧
        Join.AllAlike query.joins other.joins := by
  simp only [List.forall_mem_cons] at hother
  obtain ⟨hall, hsearch, hsort, -⟩ := hother
  have hpaths : ∀ path, path ∈ pathsOf items ↔ path ∈ pathsOf others := by
    rw [paths_eq_of_respelled hrespelled]
    exact fun _ => Iff.rfl
  have hwants : c.wantsAllFields first = c.wantsAllFields second := by
    rw [wantsAllFields, wantsAllFields, hall]
  have horders : c.orderOf second = c.orderOf first ∧
      c.searchesText second = c.searchesText first := by
    unfold orderOf searchesText
    rw [hsearch, hsort]
    exact ⟨rfl, rfl⟩
  obtain ⟨selection, joins, order, hselection, hjoins, horder, rfl⟩ := compile_eq_ok_iff.1 hquery
  rw [selectionOf_of_spells hfirst hs] at hselection
  obtain rfl := Except.ok.inj hselection
  have hselectionTwo := selectionOf_of_spells hsecond ht
  rw [← hwants] at hselectionTwo
  rw [← horders.1] at horder
  cases hwant : c.wantsAllFields first with
  | true =>
    rw [hwant, if_pos rfl] at hselectionTwo hjoins
    refine ⟨_, compile_eq_ok_iff.2 ⟨_, _, _, hselectionTwo, hjoins, horder, rfl⟩, ?_, ?_⟩
    · intro path
      rw [Query.projectPaths, Query.projectPaths, assembled, assembled, horders.2, if_pos rfl]
    · obtain rfl := Except.ok.inj hjoins
      exact ⟨[], .nil, .nil⟩
  | false =>
    rw [hwant, if_neg Bool.false_ne_true] at hselectionTwo hjoins
    have hprotected := fits_protectedFields hc
    have hone := fits_without c.protectedFields (fits_read (read_of_spells (m := included) hs))
    have htwo := fits_without c.protectedFields (fits_read (read_of_spells (m := included) ht))
    have hfollows := follows_without hprotected hs ht hpaths hharmless (read_of_spells hs)
      (read_of_spells ht)
    have hback := follows_without hprotected ht hs (fun path => (hpaths path).symm)
      (by simpa only [hpaths] using hharmless) (read_of_spells ht) (read_of_spells hs)
    obtain ⟨others, hothers, halike⟩ := planJoins_of_follows hone htwo hfollows hback hjoins
    have hleaves := mem_leaves_taken_congr hone htwo
      (fun path => ⟨hfollows.covers, hback.covers⟩) (planned_of_planJoins hone hjoins).1
      (planned_of_planJoins htwo hothers).1 halike.mem_fields_iff
    refine ⟨_, compile_eq_ok_iff.2 ⟨_, _, _, hselectionTwo, hothers, horder, rfl⟩, ?_, halike⟩
    rw [Query.projectPaths, Query.projectPaths, assembled, assembled, horders.2,
      if_neg Bool.false_ne_true]
    exact mem_projectDocument_congr _ hleaves

end Compiler

/-! ### The friend of a post -/

namespace PostsWithFriend

def people : Collection := ⟨[("name", ⟨.string, none, false⟩)], [], .standard⟩

def posts : Collection :=
  ⟨[("friend", ⟨.objectId, some "people", false⟩)], [], { Options.standard with defaultSort := none }⟩

def catalog : Catalog := [("people", people), ("posts", posts)]

def compiler : Compiler := ⟨catalog, "posts", posts, []⟩

def request (s : String) : Request := [("$fields", s)]

theorem fields_request {s : String} (hs : ((some s).map Text.trim).filter (· != "") = some s) :
    Compiler.option? (request s) posts.options.fieldsKey = some s := hs

theorem option?_request (s : String) {key : String} (hkey : key ≠ "$fields") :
    Compiler.option? (request s) key = none := by
  have hget : (request s).get? key = none := by
    rw [request, Request.get?, List.lookup_cons, beq_false_of_ne hkey]
    rfl
  rw [Compiler.option?, hget]
  rfl

/-- A request that selects fields is compiled to a query with the joins for these fields. -/
theorem exists_query {s : String} {items : List Item} {tree : Selection} {joins : List Join}
    (hs : ((some s).map Text.trim).filter (· != "") = some s) (hspells : Spells s items)
    (htree : (addAll included items []).without [] = tree)
    (hjoins : compiler.planJoins tree = .ok joins) :
    ∃ query, compiler.compile (request s) = .ok query ∧ query.joins = joins := by
  have hnone : ∀ key ∈ ["$getAllFields", "$q", "$sort"], Compiler.option? (request s) key = none := by
    simp only [List.forall_mem_cons]
    exact ⟨option?_request s (by decide), option?_request s (by decide),
      option?_request s (by decide), by simp⟩
  simp only [List.forall_mem_cons] at hnone
  obtain ⟨hall, hsearch, hsort, -⟩ := hnone
  have hselection : compiler.selectionOf (request s) = .ok (some tree) := by
    rw [Compiler.selectionOf_of_spells (c := compiler) (fields_request hs) hspells]
    have hwants : compiler.wantsAllFields (request s) = false := by
      unfold Compiler.wantsAllFields
      rw [show compiler.collection.options.allFieldsKey = "$getAllFields" from rfl, hall]
    rw [hwants, ← htree]
    rfl
  have horder : compiler.orderOf (request s) = .ok ⟨[], []⟩ := by
    unfold Compiler.orderOf Compiler.searchesText
    rw [show compiler.collection.options.sortKey = "$sort" from rfl, hsort,
      show compiler.collection.options.queryKey = "$q" from rfl, hsearch]
    rfl
  exact ⟨_, Compiler.compile_eq_ok_iff.2 ⟨_, _, _, hselection, hjoins, horder, rfl⟩, rfl⟩

/-- The join for the name of the friend. -/
def join : Join := ⟨"friend", "people", [("name", .marker included)], false⟩

theorem text_of_isReference {field : Path} (h : posts.IsReference field) :
    Path.text field = "friend" := by
  obtain ⟨info, target, hlookup, -⟩ := h
  have hmem := Keyed.mem_of_lookup hlookup
  exact congrArg Prod.fst (List.mem_singleton.1 hmem)

/-- The place as a whole instead of its city: it holds nothing protected and no reference. -/
theorem harmless_place : compiler.Harmless ["place"] ["place", "city"] := by
  have hnone : ∀ field, field <+: ["place", "city"] → ¬posts.IsFirstReference field := by
    intro field hfield hreference
    have htext : ∀ field ∈ ["place", "city"].inits, Path.text field ≠ "friend" := by decide
    exact htext field ((List.mem_inits _ _).2 hfield) (text_of_isReference hreference.reference)
  refine ⟨fun taken htaken => ?_, fun field hreference hfield => ?_, ?_⟩
  · simp [compiler, leaves] at htaken
  · exact absurd hreference (hnone field hfield)
  · intro field rest name hreference hwhole
    have hfield : field <+: ["place"] := ⟨rest, hwhole.symm⟩
    exact absurd hreference (hnone field (hfield.trans (List.prefix_append ["place"] ["city"])))

/-- The name of the friend and a place next to its city, as groups and with points. -/
theorem friend_joined_by_both_spellings :
    ∃ query other,
      compiler.compile (request "friend \x7b name \x7d place \x7b city \x7d place") = .ok query ∧
      compiler.compile (request "friend.name place.city place") = .ok other ∧
        (∀ path, path ∈ query.projectPaths ↔ path ∈ other.projectPaths) ∧
          Join.AllAlike query.joins other.joins := by
  have hspells : Spells "friend \x7b name \x7d place \x7b city \x7d place"
      [.group "friend" (.field "name") [], .group "place" (.field "city") [], .field "place"] := by
    unfold Spells
    decide +kernel
  have hspellsTwo : Spells "friend.name place.city place"
      [.field "friend.name", .field "place.city", .field "place"] := by
    unfold Spells
    decide +kernel
  have hrespelled : Respelled
      [.group "friend" (.field "name") [], .group "place" (.field "city") [], .field "place"]
      [.field "friend.name", .field "place.city", .field "place"] :=
    .append (.dotted "friend" (.field "name") [])
      (.append (.dotted "place" (.field "city") []) (.refl [.field "place"]))
  have hpaths : pathsOf [.group "friend" (.field "name") [], .group "place" (.field "city") [],
      .field "place"] = [["friend", "name"], ["place", "city"], ["place"]] := by
    have hplain : ∀ key ∈ ["friend", "name", "place", "city"], Path.ofText key = [key] := by
      intro key hkey
      refine Path.ofText_of_plain ?_
      revert key
      decide
    simp only [List.forall_mem_cons] at hplain
    simp [pathsOf, Item.paths, hplain]
  have hbehind : ∀ whole ∈ [["friend", "name"], ["place", "city"], ["place"]],
      ∀ part ∈ [["friend", "name"], ["place", "city"], ["place"]], whole <+: part → whole ≠ part →
        whole = ["place"] ∧ part = ["place", "city"] := by decide
  have hfirst : ((some "friend \x7b name \x7d place \x7b city \x7d place").map Text.trim).filter
      (· != "") = some "friend \x7b name \x7d place \x7b city \x7d place" := by decide +kernel
  have hsecond : ((some "friend.name place.city place").map Text.trim).filter (· != "") =
      some "friend.name place.city place" := by decide +kernel
  have hjoins : compiler.planJoins [("friend", .group [("name", .marker included)]),
      ("place", .marker included)] = .ok [join] := by rfl
  obtain ⟨query, hquery, -⟩ := exists_query hfirst hspells rfl hjoins
  obtain ⟨other, hother, hproject, halike⟩ := Compiler.compile_respelled
    (show Compiler.new catalog "posts" = .ok compiler from rfl) (fields_request hfirst)
    (fields_request hsecond) (by
      simp only [List.forall_mem_cons]
      refine ⟨?_, ?_, ?_, by simp⟩ <;>
        rw [option?_request _ (by decide), option?_request _ (by decide)])
    hspells hspellsTwo hrespelled (by
      rw [hpaths]
      intro whole hwhole part hpart hbegin hne
      obtain ⟨rfl, rfl⟩ := hbehind whole hwhole part hpart hbegin hne
      exact harmless_place)
    hquery
  exact ⟨query, other, hquery, hother, hproject, halike⟩

/-- The name of the friend, and the friend as a whole: with a group, nothing is joined. -/
theorem friend_joined_by_one_spelling_only :
    Compiler.new catalog "posts" = .ok compiler ∧
      Spells "friend \x7b name \x7d friend" [.group "friend" (.field "name") [], .field "friend"] ∧
      Spells "friend.name friend" [.field "friend.name", .field "friend"] ∧
      Respelled [.group "friend" (.field "name") [], .field "friend"]
        [.field "friend.name", .field "friend"] ∧
      ∃ query other, compiler.compile (request "friend \x7b name \x7d friend") = .ok query ∧
        compiler.compile (request "friend.name friend") = .ok other ∧
          ¬Join.AllAlike query.joins other.joins := by
  have hspells : Spells "friend \x7b name \x7d friend"
      [.group "friend" (.field "name") [], .field "friend"] := by
    unfold Spells
    decide +kernel
  have hspellsTwo : Spells "friend.name friend" [.field "friend.name", .field "friend"] := by
    unfold Spells
    decide +kernel
  have hfirst : ((some "friend \x7b name \x7d friend").map Text.trim).filter (· != "") =
      some "friend \x7b name \x7d friend" := by decide +kernel
  have hsecond : ((some "friend.name friend").map Text.trim).filter (· != "") =
      some "friend.name friend" := by decide +kernel
  have hjoins : compiler.planJoins [("friend", .marker included)] = .ok [] := by rfl
  have hjoinsTwo : compiler.planJoins [("friend.name", .marker included),
      ("friend", .marker included)] = .ok [join] := by rfl
  obtain ⟨query, hquery, hnone⟩ := exists_query hfirst hspells rfl hjoins
  obtain ⟨other, hother, hsome⟩ := exists_query hsecond hspellsTwo rfl hjoinsTwo
  refine ⟨rfl, hspells, hspellsTwo, .append (.dotted "friend" (.field "name") []) (.refl _), query,
    other, hquery, hother, ?_⟩
  rw [hnone, hsome]
  rintro ⟨sorted, hperm, halike⟩
  rw [List.forall₂_nil_left_iff] at halike
  rw [halike] at hperm
  exact absurd hperm.length_eq (by decide)

end PostsWithFriend

end DocQuery
