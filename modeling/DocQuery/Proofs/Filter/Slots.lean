import DocQuery.Proofs.Filter.Built
import Mathlib.Data.List.Nodup

/-!
# Every joined clause has a slot of its own

While a filter is built, clauses on joined fields take the next free slot, wherever they are put.
`Filter.Slotted` is the invariant: the slots in the filter are all different and lie below the next
free one.  Every step keeps it, so the filter of a request has it (`Compiler.slotted_filterOf`).
-/

namespace DocQuery

namespace Clause

theorem joinsOf_append (clauses others : List Clause) :
    joinsOf (clauses ++ others) = joinsOf clauses ++ joinsOf others := by
  induction clauses with
  | nil => rfl
  | cons clause rest ih => simp [joinsOf, ih]

theorem joinsOf_singleton (clause : Clause) : joinsOf [clause] = clause.joins := by
  simp [joinsOf]

theorem joinsOf_eq_nil {clauses : List Clause} (h : ∀ clause ∈ clauses, clause.joins = []) :
    joinsOf clauses = [] := by
  induction clauses with
  | nil => rfl
  | cons clause rest ih =>
    rw [List.forall_mem_cons] at h
    simp [joinsOf, h.1, ih h.2]

theorem mem_joinsOf_iff {clauses : List Clause} {joined : JoinedClause} :
    joined ∈ joinsOf clauses ↔ ∃ clause ∈ clauses, joined ∈ clause.joins := by
  induction clauses with
  | nil => simp [joinsOf]
  | cons first rest ih => rw [joinsOf, List.mem_append, ih, List.exists_mem_cons_iff]

/-- The joined clauses of a clause in a list are among those of the list. -/
theorem mem_joinsOf {clause : Clause} {clauses : List Clause} (h : clause ∈ clauses) :
    ∀ joined ∈ clause.joins, joined ∈ joinsOf clauses :=
  fun _ hjoined => mem_joinsOf_iff.2 ⟨clause, h, hjoined⟩

end Clause

namespace Filter

/-- The clauses on joined fields, in the order in which they stand. -/
def joinedClauses (filter : Filter) : List JoinedClause := Clause.joinsOf (filter.all ++ filter.any)

theorem insertBySlot_perm (clause : JoinedClause) (clauses : List JoinedClause) :
    (insertBySlot clause clauses).Perm (clause :: clauses) := by
  induction clauses with
  | nil => exact List.Perm.refl _
  | cons first rest ih =>
    unfold insertBySlot
    split
    · exact List.Perm.refl _
    · exact (ih.cons first).trans (List.Perm.swap clause first rest)

/-- In the order of their slots they are the same clauses. -/
theorem joins_perm (filter : Filter) : filter.joins.Perm filter.joinedClauses := by
  suffices h : ∀ clauses done : List JoinedClause,
      (clauses.foldl (fun done clause => insertBySlot clause done) done).Perm (clauses ++ done) by
    simpa [joins, joinedClauses] using h (Clause.joinsOf (filter.all ++ filter.any)) []
  intro clauses
  induction clauses with
  | nil => intro done; exact List.Perm.refl _
  | cons clause rest ih =>
    intro done
    have hinsert := (insertBySlot_perm clause done).append_left rest
    exact (ih _).trans (hinsert.trans List.perm_middle)

/-! ### The invariant -/

/-- The slots of a filter are all different, and the next one is free. -/
structure Slotted (filter : Filter) : Prop where
  nodup : (filter.joinedClauses.map JoinedClause.slot).Nodup
  lt_nextSlot : ∀ clause ∈ filter.joinedClauses, clause.slot < filter.nextSlot

/-- The invariant depends on the joined clauses up to their order, and leaves room for more slots. -/
theorem Slotted.of_perm {filter other : Filter} (h : filter.Slotted)
    (hperm : other.joinedClauses.Perm filter.joinedClauses)
    (hnext : filter.nextSlot ≤ other.nextSlot) : other.Slotted where
  nodup := (hperm.map JoinedClause.slot).nodup_iff.2 h.nodup
  lt_nextSlot clause hc := Nat.lt_of_lt_of_le (h.lt_nextSlot clause (hperm.mem_iff.1 hc)) hnext

theorem slotted_empty : empty.Slotted := ⟨List.nodup_nil, by simp [joinedClauses, empty, Clause.joinsOf]⟩

variable {filter : Filter}

theorem joinedClauses_addAll (clause : Clause) :
    (filter.addAll clause).joinedClauses.Perm (clause.joins ++ filter.joinedClauses) := by
  simp only [joinedClauses, addAll, Clause.joinsOf_append, Clause.joinsOf_singleton]
  rw [← List.append_assoc]
  exact List.perm_append_comm.append_right _

theorem joinedClauses_addAny (clause : Clause) :
    (filter.addAny clause).joinedClauses.Perm (clause.joins ++ filter.joinedClauses) := by
  simp only [joinedClauses, addAny, Clause.joinsOf_append, Clause.joinsOf_singleton]
  rw [← List.append_assoc]
  exact List.perm_append_comm

theorem joins_containsAll (path : String) (patterns : List String) :
    (Search.containsAll path patterns).joins = [] := by
  rw [Search.containsAll, Clause.joins]
  exact Clause.joinsOf_eq_nil (List.forall_mem_map.2 fun _ _ => rfl)

theorem joins_of_own {collection : Collection} {clause : Clause} (h : clause.Own collection) :
    clause.joins = [] := by
  cases h with
  | declared _ _ => rfl
  | dotted _ _ => rfl
  | words path patterns => exact joins_containsAll path patterns
  | normalized fields pattern =>
    rw [Clause.joins]
    exact Clause.joinsOf_eq_nil (List.forall_mem_map.2 fun _ _ => rfl)

/-- One more clause keeps the invariant, in whichever list it is. -/
theorem Slotted.of_adds {collection : Collection} {clause : Clause} {next whole : Filter}
    (h : filter.Slotted) (hadds : filter.Adds collection clause next)
    (hperm : whole.joinedClauses.Perm (clause.joins ++ next.joinedClauses))
    (hnext : whole.nextSlot = next.nextSlot) : whole.Slotted := by
  cases hadds with
  | own hown => exact h.of_perm (by simpa [joins_of_own hown] using hperm) (Nat.le_of_eq hnext.symm)
  | joined field target condition =>
    have hfresh : filter.nextSlot ∉ filter.joinedClauses.map JoinedClause.slot := by
      intro hmem
      obtain ⟨clause, hc, hslot⟩ := List.mem_map.1 hmem
      exact absurd (h.lt_nextSlot clause hc) (by omega)
    have hone : whole.joinedClauses.Perm
        (⟨filter.nextSlot, field, target, condition⟩ :: filter.joinedClauses) := hperm
    constructor
    · rw [(hone.map JoinedClause.slot).nodup_iff, List.map_cons, List.nodup_cons]
      exact ⟨hfresh, h.nodup⟩
    · intro clause hc
      have hsucc : whole.nextSlot = filter.nextSlot + 1 := hnext
      rw [hsucc]
      rcases List.mem_cons.1 (hone.mem_iff.1 hc) with rfl | hc
      · exact Nat.lt_succ_self _
      · exact Nat.lt_succ_of_lt (h.lt_nextSlot clause hc)

theorem Built.slotted {collection : Collection} {hasIndex : Bool}
    (h : filter.Built collection hasIndex) : filter.Slotted := by
  induction h with
  | empty => exact slotted_empty
  | addAll _ hadds ih => exact ih.of_adds hadds (joinedClauses_addAll _) rfl
  | addAny _ hadds ih => exact ih.of_adds hadds (joinedClauses_addAny _) rfl
  | search _ _ _ ih => exact ih.of_perm (List.Perm.refl _) (Nat.le_refl _)

end Filter

/-- The filter of a request has a slot of its own for each joined clause. -/
theorem Compiler.slotted_filterOf (c : Compiler) (request : Request) : (c.filterOf request).Slotted :=
  (c.built_filterOf request).slotted

end DocQuery
