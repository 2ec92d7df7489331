import DocQuery.Proofs.Filter.Searches
import DocQuery.Proofs.Filter.Settled

/-!
# The order of clauses does not matter

Two filters with the same clauses in different orders are rendered differently, but the store treats them
alike: it can read both or none of them, they admit the same documents, and they search for the same text
if there is only one in their clauses.  So their match stages give the same rows
(`Filter.Reorders.runMatch`).
-/

namespace DocQuery

open Test Execution

namespace Filter

variable {filter other : Filter} {resolved : ResolvedIds} {text : String}

/-- The same clauses in some order, and the same text to search for. -/
structure Reorders (filter other : Filter) : Prop where
  all : filter.all.Perm other.all
  any : filter.any.Perm other.any
  text : filter.text = other.text

theorem Reorders.symm (h : filter.Reorders other) : other.Reorders filter :=
  ⟨h.all.symm, h.any.symm, h.text.symm⟩

theorem Reorders.mem_iff (h : filter.Reorders other) {clause : Clause} :
    clause ∈ filter.all ++ filter.any ↔ clause ∈ other.all ++ other.any :=
  (h.all.append h.any).mem_iff

theorem Reorders.mem_joinedClauses (h : filter.Reorders other) {joined : JoinedClause}
    (hj : joined ∈ filter.joinedClauses) : joined ∈ other.joinedClauses := by
  rw [joinedClauses, Clause.mem_joinsOf_iff] at hj ⊢
  obtain ⟨clause, hc, hj⟩ := hj
  exact ⟨clause, h.mem_iff.1 hc, hj⟩

/-- With the ids written into them, the clauses are still the same. -/
theorem Reorders.settled (h : filter.Reorders other) (ids : JoinedClause → List Value) :
    (filter.settled ids).Reorders (other.settled ids) :=
  ⟨h.all.map _, h.any.map _, h.text⟩

theorem Reorders.readable (h : filter.Reorders other) (hread : Readable (filter.toDocument resolved)) :
    Readable (other.toDocument resolved) := by
  rw [readable_toDocument_iff] at hread ⊢
  exact fun clause hc => hread clause (h.mem_iff.2 hc)

/-- A document that passes one of them passes the other one. -/
theorem Reorders.admits (h : filter.Reorders other) {doc : Document} {relevance : Nat}
    (hadmits : Admits (filter.toDocument resolved) doc relevance) :
    Admits (other.toDocument resolved) doc relevance := by
  have hread : Readable (filter.toDocument resolved) := hadmits.imp fun _ => And.left
  obtain ⟨hall, hany, htext⟩ := (filter.admits_toDocument_iff resolved hread).1 hadmits
  refine (other.admits_toDocument_iff resolved (h.readable hread)).2 ⟨?_, ?_, ?_⟩
  · exact fun clause hc => hall clause (h.all.mem_iff.2 hc)
  · refine hany.imp (fun hnil => ?_) fun ⟨clause, hc, hclause⟩ => ?_
    · exact List.nil_perm.1 (hnil ▸ h.any)
    · exact ⟨clause, h.any.mem_iff.1 hc, hclause⟩
  · exact h.text ▸ htext

variable {test test' : Test}

theorem Reorders.holds_eq (h : filter.Reorders other)
    (hread : Test.read (filter.toDocument resolved) = .ok test)
    (hread' : Test.read (other.toDocument resolved) = .ok test') (doc : Document) (relevance : Nat) :
    test.holds doc relevance = test'.holds doc relevance := by
  have hadmits : ∀ relevance, Admits (filter.toDocument resolved) doc relevance ↔
      Admits (other.toDocument resolved) doc relevance :=
    fun _ => ⟨h.admits, h.symm.admits⟩
  rw [Bool.eq_iff_iff]
  simpa [Admits, hread, hread'] using hadmits relevance

theorem Reorders.search?_eq (h : filter.Reorders other)
    (hread : Test.read (filter.toDocument resolved) = .ok test)
    (hread' : Test.read (other.toDocument resolved) = .ok test')
    (honly : ∀ clause ∈ filter.all ++ filter.any,
      Reads (SearchesOnly text) (clause.toDocument resolved)) :
    test.search? = test'.search? := by
  have honly' : ∀ clause ∈ other.all ++ other.any,
      Reads (SearchesOnly text) (clause.toDocument resolved) :=
    fun clause hc => honly clause (h.mem_iff.2 hc)
  have hany : filter.AnyQuiet resolved ↔ other.AnyQuiet resolved :=
    forall_congr' fun _ => imp_congr_left h.any.mem_iff
  have hall : filter.AllQuiet resolved ↔ other.AllQuiet resolved :=
    forall_congr' fun _ => imp_congr_left h.all.mem_iff
  rw [Filter.search?_eq hread honly, Filter.search?_eq hread' honly', h.text, propext hany,
    propext hall]

/-- The same clauses in another order let the same rows pass, each with the same relevance. -/
theorem Reorders.runMatch {textIndex : List String} {rows passed : List Row} (h : filter.Reorders other)
    (honly : ∀ clause ∈ filter.all ++ filter.any, Readable (clause.toDocument resolved) →
      Reads (SearchesOnly text) (clause.toDocument resolved))
    (hpassed : runMatch textIndex rows (filter.toDocument resolved) = .ok passed) :
    runMatch textIndex rows (other.toDocument resolved) = .ok passed := by
  obtain ⟨test, hread, hindex, rfl⟩ := runMatch_eq_ok_iff.1 hpassed
  obtain ⟨test', hread'⟩ := h.readable ⟨test, hread⟩
  have hclauses := (filter.readable_toDocument_iff resolved).1 ⟨test, hread⟩
  have hsearch : test.search? = test'.search? :=
    h.search?_eq hread hread' fun clause hc => honly clause hc (hclauses clause hc)
  have hrated : rated textIndex test = rated textIndex test' := by
    funext row
    rw [rated, rated, hsearch]
  have hpasses : passes textIndex test = passes textIndex test' := by
    funext row
    rw [passes, passes, hrated, h.holds_eq hread hread']
  exact runMatch_eq_ok_iff.2 ⟨test', hread', hsearch ▸ hindex, by rw [hrated, hpasses]⟩

end Filter

end DocQuery
