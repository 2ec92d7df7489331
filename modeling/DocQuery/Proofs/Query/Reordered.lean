import DocQuery.Proofs.Filter.Reordered
import DocQuery.Proofs.Query.ForeignKeys

/-!
# Requests with their pairs in another order

A pair of a request counts for a collection if its key is reserved, if something is known of it, or if it
is a path of more than one key (`Collection.counts`); all other pairs leave the filter as it is.  Two
requests with the same pairs that count, in whatever order (`Collection.Reordered`), mean the same query
but for its filter (`Compiler.compile_reordered`), and the filters have the same clauses apart from the
slots (`Compiler.reorders_filterOf`).
-/

namespace DocQuery

/-! ### Pairs that count -/

namespace Collection

/-- A key of a request that means something. -/
def counts (c : Collection) (key : String) : Bool :=
  c.options.isReserved key || (c.info? key).isSome || key.toList.contains '.'

/-- The same pairs that count, in some order. -/
structure Reordered (c : Collection) (request other : Request) : Prop where
  distinct : Keyed.Distinct request
  distinct' : Keyed.Distinct other
  perm : (request.filter fun pair => c.counts pair.1).Perm (other.filter fun pair => c.counts pair.1)

variable {c : Collection} {request other : Request}

theorem Reordered.symm (h : c.Reordered request other) : c.Reordered other request :=
  ⟨h.distinct', h.distinct, h.perm.symm⟩

/-- A key that counts has the same text in both requests. -/
theorem Reordered.lookup_eq (h : c.Reordered request other) {key : String}
    (hkey : c.counts key = true) : request.lookup key = other.lookup key := by
  have hdistinct : Keyed.Distinct (request.filter fun pair => c.counts pair.1) :=
    h.distinct.sublist (List.filter_sublist.map Prod.fst)
  rw [← Keyed.lookup_filter hkey request, ← Keyed.lookup_filter hkey other]
  exact Keyed.lookup_of_perm h.perm hdistinct key

end Collection

namespace Compiler

variable {c : Compiler} {request other : Request}

theorem option?_reordered (h : c.collection.Reordered request other) {key : String}
    (hkey : key ∈ c.collection.options.reservedKeys) : option? request key = option? other key := by
  have hcounts : c.collection.counts key = true := by
    simp [Collection.counts, Options.isReserved, hkey]
  rw [option?, option?, Request.get?, Request.get?, h.lookup_eq hcounts]

/-- A pair that does not count leaves the filter as it is. -/
theorem addPair_of_not_counts {pair : String × String} (h : c.collection.counts pair.1 = false)
    (filter : Filter) : c.addPair filter pair = filter := by
  simp only [Collection.counts, Bool.or_eq_false_iff, Option.isSome_eq_false_iff,
    Option.isNone_iff_eq_none] at h
  obtain ⟨⟨hreserved, hinfo⟩, hdot⟩ := h
  have hplain : Path.Plain pair.1 := by simpa [Path.Plain] using hdot
  have hclause : ∀ condition, c.clauseFor pair.1 condition filter = none := by
    intro condition
    rw [clauseFor, hinfo, Collection.foreign?_of_plain hplain]
    dsimp only
    rw [hdot, if_neg Bool.false_ne_true]
  rw [addPair, hreserved, if_neg Bool.false_ne_true]
  dsimp only
  rw [hclause]

/-! ### The filters -/

theorem text_addPair (filter : Filter) (pair : String × String) :
    (c.addPair filter pair).text = filter.text := by
  unfold addPair
  split
  · rfl
  · dsimp only
    split
    · next clause next hclause =>
      have hnext : next.text = filter.text := by
        cases c.adds_of_clauseFor hclause <;> rfl
      split <;> exact hnext
    · rfl

/-- The pairs that do not count can be left out. -/
theorem flatMap_pairFilter {α : Type} (f : Filter → List α) (hf : f Filter.empty.unslotted = [])
    (request : Request) :
    (request.map c.pairFilter).flatMap f =
      (request.filter fun pair => c.collection.counts pair.1).flatMap fun pair =>
        f (c.pairFilter pair) := by
  induction request with
  | nil => rfl
  | cons pair rest ih =>
    rw [List.map_cons, List.flatMap_cons, ih, List.filter_cons]
    split
    · rfl
    · next hnot =>
      rw [pairFilter, addPair_of_not_counts (Bool.not_eq_true _ ▸ hnot), hf, List.nil_append]

/-- The filters of both requests have the same clauses, apart from the slots. -/
theorem reorders_filterOf (h : c.collection.Reordered request other) :
    (c.filterOf request).unslotted.Reorders (c.filterOf other).unslotted := by
  have hquery : option? request c.collection.options.queryKey =
      option? other c.collection.options.queryKey :=
    option?_reordered h (by simp [Options.reservedKeys])
  have hsearch : option? request c.collection.options.searchKey =
      option? other c.collection.options.searchKey :=
    option?_reordered h (by simp [Options.reservedKeys])
  have hsearches : c.addSearches request .empty = c.addSearches other .empty := by
    unfold addSearches
    dsimp only
    rw [hquery, hsearch]
  have hperm : ∀ f : Filter → List Clause, f Filter.empty.unslotted = [] →
      ((request.map c.pairFilter).flatMap f).Perm ((other.map c.pairFilter).flatMap f) := by
    intro f hf
    rw [flatMap_pairFilter f hf, flatMap_pairFilter f hf]
    exact h.perm.flatMap_right _
  have htext : ∀ request : Request, ∀ part ∈ request.map c.pairFilter, part.text = none :=
    fun request => List.forall_mem_map.2 fun pair _ => text_addPair .empty pair
  rw [unslotted_filterOf, unslotted_filterOf, hsearches]
  refine ⟨?_, ?_, ?_⟩
  · simp only [Filter.all_append, Filter.all_foldl_append]
    exact ((hperm Filter.all rfl).append_left _).append_right _
  · simp only [Filter.any_append, Filter.any_foldl_append]
    exact ((hperm Filter.any rfl).append_left _).append_right _
  · simp only [Filter.text_append, Filter.text_foldl_append (htext _)]

/-- Both requests mean the same query, but for its filter. -/
theorem compile_reordered (h : c.collection.Reordered request other) {query : Query}
    (hquery : c.compile request = .ok query) :
    c.compile other = .ok { query with filter := c.filterOf other } := by
  obtain ⟨selection, joins, order, hselection, hjoins, horder, rfl⟩ := compile_eq_ok_iff.1 hquery
  have hoption : ∀ key ∈ c.collection.options.reservedKeys, option? other key = option? request key :=
    fun key hkey => (option?_reordered h hkey).symm
  simp only [Options.reservedKeys, List.forall_mem_cons] at hoption
  obtain ⟨hpage, hlimit, hfields, hsort, hq, -, hunwind, hall, -⟩ := hoption
  have hsearch : c.searchesText other = c.searchesText request := by
    unfold searchesText
    rw [hq]
  refine compile_eq_ok_iff.2 ⟨selection, joins, order, ?_, hjoins, ?_, ?_⟩
  · rw [← hselection]
    unfold selectionOf wantsAllFields
    dsimp only
    rw [hfields, hall]
  · rw [← horder]
    unfold orderOf
    rw [hsort, hsearch]
  · unfold assembled unwindOf positive?
    rw [hsearch, hpage, hlimit, hunwind]

end Compiler

end DocQuery
