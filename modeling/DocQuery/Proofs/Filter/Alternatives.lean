import DocQuery.Proofs.Filter.Searches
import DocQuery.Proofs.Filter.SemiJoin
import DocQuery.Proofs.Filter.Settled

/-!
# The alternatives of a filter

The clauses of `any` are joined to one disjunction.  A store that accepts each of them (`Clause.Accepted`)
accepts the disjunction too, and a document is found with it if one of the clauses holds
(`Filter.finds_anyFields_iff`).  Neither depends on the slots of the joined clauses.
-/

namespace DocQuery

open Test

namespace Clause

/-- A store accepts the rendering of a clause in a collection, and its joined clauses in theirs. -/
structure Accepted (store : Store) (base : StoredCollection) (clause : Clause) : Prop where
  rendering : base.Accepts (clause.toDocument [])
  joins : ∀ joined ∈ clause.joins, joined.Accepted store

variable {store : Store} {base : StoredCollection} {doc : Document} {relevance : Nat}

theorem toDocument_unslotted (clause : Clause) : clause.unslotted.toDocument [] = clause.toDocument [] := by
  have hnone : ∀ clause : Clause, (clause.settled fun _ => []).toDocument [] = clause.toDocument [] :=
    fun clause => clause.toDocument_settled [] fun _ _ => rfl
  rw [← hnone clause.unslotted, settled_unslotted fun _ => rfl, hnone]

theorem accepted_joins_unslotted (clause : Clause) :
    (∀ joined ∈ clause.unslotted.joins, joined.Accepted store) ↔
      ∀ joined ∈ clause.joins, joined.Accepted store := by
  rw [joins_unslotted, List.forall_mem_map]
  rfl

theorem accepted_unslotted (clause : Clause) :
    clause.unslotted.Accepted store base ↔ clause.Accepted store base := by
  constructor
  · exact fun h => ⟨clause.toDocument_unslotted ▸ h.rendering, clause.accepted_joins_unslotted.1 h.joins⟩
  · exact fun h => ⟨clause.toDocument_unslotted ▸ h.rendering, clause.accepted_joins_unslotted.2 h.joins⟩

/-- Whether joined clauses hold does not depend on their slots. -/
theorem holds_unslotted {P : JoinedClause → Prop} (hP : ∀ joined, P { joined with slot := 0 } ↔ P joined)
    (clause : Clause) : clause.unslotted.Holds P doc relevance ↔ clause.Holds P doc relevance := by
  induction clause using ind with
  | field path condition => rfl
  | joined clause => exact hP clause
  | all clauses ih =>
    rw [unslotted, mapJoins, mapJoinsOf_eq_map, Holds, Holds, holdsAll_iff, holdsAll_iff,
      List.forall_mem_map]
    exact forall₂_congr ih
  | any clauses ih =>
    rw [unslotted, mapJoins, mapJoinsOf_eq_map, Holds, Holds, holdsAny_iff, holdsAny_iff]
    simp only [List.mem_map, exists_exists_and_eq_and]
    exact exists_congr fun clause => and_congr_right (ih clause)

end Clause

/-- The alternatives of a filter are accepted together, and a document is found with them if one of them
holds. -/
theorem Filter.finds_anyFields_iff {store : Store} {base : StoredCollection} {filter : Filter}
    {resolved : ResolvedIds} (hne : filter.any ≠ [])
    (haccepted : ∀ clause ∈ filter.any, clause.Accepted store base)
    (hids : ∀ clause ∈ filter.joinedClauses, clause.IdsAre store (resolved.get clause.slot)) :
    base.Accepts (filter.anyFields resolved) ∧
      ∀ doc, base.Finds (filter.anyFields resolved) doc ↔
        ∃ clause ∈ filter.any, clause.Holds (JoinedClause.Holds store doc) doc
          (base.row (filter.anyFields resolved) doc).relevance := by
  have hreads : ∀ {P : Test → Prop}, IgnoresValues P → ∀ clause ∈ filter.any,
      (Reads P (clause.toDocument resolved) ↔ Reads P (clause.toDocument [])) :=
    fun hP clause _ => clause.reads_toDocument_congr hP []
  have hread : ∀ clause ∈ filter.any, Readable (clause.toDocument resolved) := by
    intro clause hc
    rw [readable_iff_reads, hreads ignoresValues_true clause hc, ← readable_iff_reads]
    exact (StoredCollection.accepts_iff.1 (haccepted clause hc).rendering).1
  have hreadable : Readable (filter.anyFields resolved) := by
    rw [readable_iff_reads, reads_anyFields_iff ignoresValues_true trivial]
    exact fun clause hc => (readable_iff_reads _).1 (hread clause hc)
  have hquiet : Quiet (filter.anyFields resolved) ↔ filter.AnyQuiet resolved :=
    reads_anyFields_iff ignoresValues_quiet rfl
  have haccepts : base.Accepts (filter.anyFields resolved) := by
    rw [StoredCollection.accepts_iff, hquiet]
    refine ⟨hreadable, ?_⟩
    by_cases hindex : base.textIndex = []
    · refine .inl fun clause hc => (hreads ignoresValues_quiet clause hc).2 ?_
      have hclause := (StoredCollection.accepts_iff.1 (haccepted clause hc).rendering).2
      exact hclause.resolve_right (not_not.2 hindex)
    · exact .inr hindex
  refine ⟨haccepts, fun doc => ?_⟩
  have hadmits : ∀ relevance, Admits (filter.anyFields resolved) doc relevance ↔
      ∃ clause ∈ filter.any, Admits (clause.toDocument resolved) doc relevance := fun relevance =>
    (reads_iff_forall (conjunctive_holds doc relevance) _).trans
      ((filter.admits_anyFields_iff resolved hread).trans (or_iff_right hne))
  rw [StoredCollection.finds_iff_admits haccepts, hadmits]
  refine exists_congr fun clause => and_congr_right fun hc => ?_
  rw [clause.admits_toDocument_iff (hread clause hc)]
  refine clause.holds_congr fun joined hjoined => (hids joined ?_).foundIn_iff
  exact Clause.mem_joinsOf (List.mem_append_right _ hc) joined hjoined

end DocQuery
