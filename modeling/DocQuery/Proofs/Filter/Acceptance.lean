import DocQuery.Proofs.Filter.Rendering
import DocQuery.Proofs.Store.Matching

/-!
# Which filters a store accepts

Whether a store accepts the rendering of a filter does not depend on the ids that are filed for its
joined clauses (`Filter.accepts_toDocument_iff`): a list of ids can always be read, and it searches
for no text.
-/

namespace DocQuery

open Test

/-- A property that tests have if their parts have it, and that every test for some of a list of
values has. -/
structure Test.IgnoresValues (P : Test → Prop) : Prop where
  all : Conjunctive P
  any : ∀ tests, P (.any tests) ↔ ∀ test ∈ tests, P test
  oneOf : ∀ path values, P (.oneOf path values)

theorem Test.ignoresValues_true : IgnoresValues fun _ => True := by
  constructor <;> simp [Conjunctive]

theorem Test.ignoresValues_quiet : IgnoresValues fun test => test.search? = none where
  all := conjunctive_quiet
  any := searchAmong_eq_none_iff
  oneOf _ _ := rfl

variable {P : Test → Prop} {resolved : ResolvedIds}

namespace Clause

theorem reads_any_iff (hP : IgnoresValues P) {clauses : List Clause} :
    Reads P [("$or", .array (toValues resolved clauses))] ↔
      clauses ≠ [] ∧ ∀ clause ∈ clauses, Reads P (clause.toDocument resolved) := by
  rw [toValues_eq_map, reads_array_iff (readField_or _), exists_tests_and_iff .any hP.any]
  simp

theorem reads_joined_iff (hP : IgnoresValues P) (clause : JoinedClause) :
    Reads P (toDocument resolved (.joined clause)) ↔ isOperatorKey clause.field = false := by
  rw [toDocument]
  constructor
  · exact fun h => readable_in_iff.1 h.readable
  · exact fun h => reads_singleton_iff.2 ⟨_, readField_in h _, hP.oneOf _ _⟩

/-- How a clause is read does not depend on the ids that are filed. -/
theorem reads_toDocument_congr (hP : IgnoresValues P) (other : ResolvedIds) (clause : Clause) :
    Reads P (clause.toDocument resolved) ↔ Reads P (clause.toDocument other) := by
  induction clause using ind with
  | field path condition => rfl
  | joined clause => rw [reads_joined_iff hP, reads_joined_iff hP]
  | all clauses ih =>
    rw [reads_all_iff hP.all, reads_all_iff hP.all]
    exact and_congr_right fun _ => forall₂_congr ih
  | any clauses ih =>
    rw [toDocument, toDocument, reads_any_iff hP, reads_any_iff hP]
    exact and_congr_right fun _ => forall₂_congr ih

end Clause

namespace Filter

/-- How a filter is read does not depend on the ids that are filed. -/
theorem reads_toDocument_congr (hP : IgnoresValues P) (other : ResolvedIds) (filter : Filter) :
    Reads P (filter.toDocument resolved) ↔ Reads P (filter.toDocument other) := by
  have hany : (∀ field ∈ filter.anyFields resolved, Reads P [field]) ↔
      ∀ field ∈ filter.anyFields other, Reads P [field] := by
    unfold anyFields
    split
    · rfl
    · simp only [List.forall_mem_singleton, Clause.reads_any_iff hP]
      exact and_congr_right fun _ => forall₂_congr fun clause _ =>
        clause.reads_toDocument_congr hP other
  rw [reads_toDocument_iff _ _ hP.all, reads_toDocument_iff _ _ hP.all, hany]
  exact and_congr_left fun _ => forall₂_congr fun clause _ => clause.reads_toDocument_congr hP other

/-- Whether a store accepts a filter does not depend on the ids that are filed. -/
theorem accepts_toDocument_iff (c : StoredCollection) (resolved other : ResolvedIds)
    (filter : Filter) :
    c.Accepts (filter.toDocument resolved) ↔ c.Accepts (filter.toDocument other) := by
  have hread : Reads (fun _ => True) (filter.toDocument resolved) ↔ _ :=
    filter.reads_toDocument_congr ignoresValues_true other
  have hquiet : Quiet (filter.toDocument resolved) ↔ _ :=
    filter.reads_toDocument_congr ignoresValues_quiet other
  rw [← readable_iff_reads, ← readable_iff_reads] at hread
  rw [StoredCollection.accepts_iff, StoredCollection.accepts_iff, hread]
  exact and_congr_right fun _ => or_congr_left hquiet

end Filter

end DocQuery
