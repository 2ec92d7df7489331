import DocQuery.Proofs.Query.Asked
import DocQuery.Proofs.Query.Compiled
import DocQuery.Proofs.Query.SortKeys

/-!
# Sort keys behind references

A sort key that leads through a reference and does not belong to the collection itself is applied after
the joins, in the order in which the keys are written (`Compiler.afterJoins_of_compile`); the keys of the
pipeline have distinct paths (`Compiler.distinct_here_of_compile`).  The path of a foreign key is cut at
the first reference (`Collection.foreign?_eq_some`), the same one at which the joins of a query stand;
whether they bring what the key is about depends on what the query selects (`Query.Brings`).
-/

namespace DocQuery

open Selection

namespace Collection

variable {c : Collection} {path field target rest : String}

/-- A path leads through a reference and does not belong to the collection. -/
def isForeign (c : Collection) (path : String) : Bool :=
  !c.recognizes path && (c.foreign? path).isSome

/-- The parts of a path that goes on behind a reference. -/
theorem foreign?_eq_some (h : c.foreign? path = some (field, target, rest)) :
    c.IsFirstReference (Path.ofText field) ∧ Path.ofText path = Path.ofText field ++ Path.ofText rest ∧
      ∃ info, c.fields.lookup field = some info ∧ info.target = some target := by
  obtain ⟨reference, hreference, h⟩ := Option.bind_eq_some_iff.1 h
  obtain ⟨text, hrest, h⟩ := Option.map_eq_some_iff.1 h
  obtain ⟨rfl, rfl, rfl⟩ : reference.field = field ∧ reference.collection = target ∧ text = rest := by
    simpa using h
  obtain ⟨info, hinfo, htarget, -⟩ := exists_info_of_referenceFrom hreference
  refine ⟨isFirstReference_of_reference? hreference, ?_, info, hinfo, htarget⟩
  obtain ⟨front, back, hpath, hfront, hfield, hback, -⟩ := referenceFrom_eq_some hreference
  have hplain : ∀ part ∈ front ++ back, Path.Plain part := fun part hpart =>
    Path.plain_of_mem_ofText (hpath ▸ hpart)
  rw [List.forall_mem_append] at hplain
  rw [hrest, restOf] at hback
  split at hback
  · cases hback
  · next hne =>
    rw [List.nil_append] at hfield
    have hback' : back ≠ [] := fun hnil => hne (by rw [hnil]; rfl)
    rw [hpath, hfield, Option.some.inj hback, Path.ofText_text hfront hplain.1,
      Path.ofText_text hback' hplain.2]

/-- A path of one key does not go on behind a reference. -/
theorem foreign?_of_plain (h : Path.Plain path) : c.foreign? path = none := by
  rw [Option.eq_none_iff_forall_ne_some]
  rintro ⟨field, target, rest⟩ hforeign
  have hlength := congrArg List.length (foreign?_eq_some hforeign).2.1
  have hfield := List.length_pos_of_ne_nil (Path.ofText_ne_nil field)
  have hrest := List.length_pos_of_ne_nil (Path.ofText_ne_nil rest)
  rw [Path.ofText_of_plain h, List.length_append, List.length_singleton] at hlength
  omega

end Collection

/-! ### The keys that are applied after the joins -/

namespace SortOrder

variable {c : Collection} {textSearch : Bool}

theorem afterJoins_addKey (order : SortOrder) (key : String × Direction) :
    (addKey c textSearch order key).afterJoins =
      order.afterJoins ++ [key].filter fun key => c.isForeign key.1 := by
  unfold addKey Collection.isForeign
  split
  · next hscore =>
    have hkey : key.1 = scoreField := by simpa using (Bool.and_eq_true_iff.1 hscore).2
    have hnone : c.foreign? key.1 = none := hkey ▸ Collection.foreign?_of_plain (by decide)
    simp [hnone]
  · split
    · next hrecognized => simp [hrecognized]
    · next hrecognized => split <;> simp_all

theorem afterJoins_foldl (keys : SortKeys) (order : SortOrder) :
    (keys.foldl (addKey c textSearch) order).afterJoins =
      order.afterJoins ++ keys.filter fun key => c.isForeign key.1 := by
  induction keys generalizing order with
  | nil => simp
  | cons key rest ih =>
    rw [List.foldl_cons, ih, afterJoins_addKey, List.append_assoc, ← List.filter_append,
      List.singleton_append]

/-! ### The keys that are applied in the pipeline -/

theorem keys_here_foldl (keys : SortKeys) (order : SortOrder) :
    (Keyed.keys (keys.foldl (addKey c textSearch) order).here).Sublist
      (Keyed.keys order.here ++ Keyed.keys keys) := by
  induction keys generalizing order with
  | nil => simp [Keyed.keys]
  | cons key rest ih =>
    have hadded : (Keyed.keys (addKey c textSearch order key).here).Sublist
        (Keyed.keys order.here ++ [key.1]) := by
      unfold addKey
      split
      · simp [Keyed.keys]
      · split
        · simp [Keyed.keys]
        · split <;> exact List.sublist_append_left _ _
    refine (ih _).trans ((hadded.append_right _).trans ?_)
    rw [List.append_assoc]
    exact .refl _

/-- The keys that are meant have distinct paths. -/
theorem distinct_of_effectiveKeys {requested : Option String} {keys : SortKeys}
    (h : effectiveKeys requested c textSearch = .ok keys) : Keyed.Distinct keys := by
  have hread (s : String)
      (h : ((SortKeys.read s).mapError fun fault => (s, fault)) = .ok keys) : Keyed.Distinct keys := by
    obtain ⟨named, -, rfl⟩ := SortKeys.read_eq_ok_iff.1 (Outcome.mapError_eq_ok_iff.1 h)
    exact Keyed.distinct_ofList named
  unfold effectiveKeys at h
  split at h
  · exact hread _ h
  · split at h
    · obtain rfl := Except.ok.inj h
      exact List.nodup_singleton _
    · split at h
      · exact hread _ h
      · obtain rfl := Except.ok.inj h
        exact List.nodup_nil

end SortOrder

namespace Compiler

variable {c : Compiler} {request : Request} {query : Query}

/-- The keys that are meant by a request, as they are written. -/
def keysOf (c : Compiler) (request : Request) : Except (String × SortKeys.Fault) SortKeys :=
  SortOrder.effectiveKeys (option? request c.collection.options.sortKey) c.collection
    (c.searchesText request)

/-- Of the keys that are meant by a request those are applied after the joins that are foreign. -/
theorem afterJoins_of_compile (h : c.compile request = .ok query) : ∃ keys,
    c.keysOf request = .ok keys ∧
      query.order.afterJoins = keys.filter fun key => c.collection.isForeign key.1 := by
  obtain ⟨selection, joins, order, -, -, horder, rfl⟩ := compile_eq_ok_iff.1 h
  obtain ⟨keys, hkeys, rfl⟩ := Outcome.map_eq_ok_iff.1 horder
  refine ⟨keys, hkeys, ?_⟩
  exact SortOrder.afterJoins_foldl keys ⟨[], []⟩

/-- The keys by which the pipeline of a query sorts have distinct paths. -/
theorem distinct_here_of_compile (h : c.compile request = .ok query) : Keyed.Distinct query.order.here := by
  obtain ⟨selection, joins, order, -, -, horder, rfl⟩ := compile_eq_ok_iff.1 h
  obtain ⟨keys, hkeys, rfl⟩ := Outcome.map_eq_ok_iff.1 horder
  exact (SortOrder.distinct_of_effectiveKeys hkeys).sublist (SortOrder.keys_here_foldl keys ⟨[], []⟩)

/-- Stripping keeps what is declared of joins. -/
theorem declared_of_stripJoins {catalog : Catalog} {collection : Collection} {joins stripped : List Join}
    (h : stripJoins catalog joins = .ok stripped)
    (hjoins : ∀ join ∈ joins, Join.Declared collection join) :
    ∀ join ∈ stripped, Join.Declared collection join := by
  rw [stripJoins_eq_mapM, Outcome.mapM_eq_ok_iff] at h
  induction h with
  | nil => simp
  | cons hstrip _ ih =>
    rw [List.forall_mem_cons] at hjoins ⊢
    refine ⟨?_, ih hjoins.2⟩
    obtain ⟨info, hinfo, htarget, hmany⟩ := hjoins.1
    have hnew := strippedFrom_of_strip hstrip
    exact ⟨info, hnew.field ▸ hinfo, hnew.collection ▸ htarget, hnew.many ▸ hmany⟩

/-- Where a join of a query stands decides which collection it is for. -/
theorem Means.declared (h : c.Means request query) :
    ∀ join ∈ query.joins, Join.Declared c.collection join := by
  cases hselection : query.selection with
  | none => simp [h.joinsOfNone hselection]
  | some selection =>
    exact declared_of_stripJoins (h.joinsOfSelection selection hselection)
      (Join.declared_plan c.collection selection)

end Compiler

/-! ### What the joins bring -/

/-- A join takes what stands at a path in the documents that it fetches. -/
def Join.Takes (join : Join) (rest : Path) : Prop :=
  rest.head? = some "_id" ∨ Covers join.selection rest

/-- The joins of a query bring what stands behind a reference. -/
def Query.Brings (query : Query) (c : Collection) (path : String) : Prop :=
  ∃ field name rest, c.foreign? path = some (field, name, rest) ∧
    ∃ join ∈ query.joins, join.field = field ∧ join.Takes (Path.ofText rest)

end DocQuery
