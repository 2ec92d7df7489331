import DocQuery.Proofs.Answer.Pointwise
import DocQuery.Proofs.Path.Commuting

/-!
# The order of joins

All that a join fetches is asked for before any document changes, and what it changes lies at its own
field.  The fields of the joins of a plan are apart, so the joins can be resolved in any order
(`Join.resolve_perm`).
-/

namespace DocQuery

namespace Join

variable {store : Store} {docs joined : List Document} {joins others : List Join}

theorem allApart_changesBy {changes : Join → Value → Option Value}
    (h : joins.Pairwise fun join other => Path.Apart (Path.ofText join.field) (Path.ofText other.field)) :
    Path.AllApart (changesBy changes joins) := List.pairwise_map.2 h

/-- Joins at fields that are apart are resolved in any order, and change the same. -/
theorem resolve_perm_of_apart (h : joins.Perm others)
    (hapart : joins.Pairwise fun join other =>
      Path.Apart (Path.ofText join.field) (Path.ofText other.field)) :
    (resolve store.source joins docs).run.run = .ok joined ↔
      (resolve store.source others docs).run.run = .ok joined := by
  have hchanges : (changesBy (change store docs) joins).Perm (changesBy (change store docs) others) :=
    h.map _
  have hupdate : Path.updateAll (changesBy (change store docs) joins) =
      Path.updateAll (changesBy (change store docs) others) :=
    funext (Path.updateAll_perm hchanges (allApart_changesBy hapart))
  simp only [resolve_eq_ok_iff, hupdate, h.mem_iff]

/-- **Joins can be resolved in any order.**  Whatever is selected from whichever collection, with the
protected fields taken away or not: the joins for it are resolved in one order if they are in any other
one, and every document of the batch becomes the same. -/
theorem resolve_perm {compiler : Compiler} {selection : Selection}
    (hjoins : joins = plan compiler.collection selection ∨ compiler.planJoins selection = .ok joins)
    (h : joins.Perm others) (store : Store) (docs joined : List Document) :
    (resolve store.source joins docs).run.run = .ok joined ↔
      (resolve store.source others docs).run.run = .ok joined :=
  resolve_perm_of_apart h (apart_of_plan hjoins)

end Join

/-! ### The friends before the author -/

namespace PostsWithNames

open Join

/-- Both fields of the post hold ids, and it does not matter which of them is joined first. -/
theorem friends_before_author :
    joins = plan compiler.collection named ∧ joins.Perm joins.reverse ∧
      (∀ join ∈ joins, idsIn [post] join.field ≠ []) ∧
      ∃ joined, (resolve store.source joins [post]).run.run = .ok joined ∧
        (resolve store.source joins.reverse [post]).run.run = .ok joined := by
  have hauthor : Path.ofText "author" = ["author"] := Path.ofText_of_plain (by decide)
  have hfriends : Path.ofText "friends" = ["friends"] := Path.ofText_of_plain (by decide)
  have hids : ∀ join ∈ joins, idsIn [post] join.field ≠ [] := by
    have hann : ∃ first ∈ idsIn [post] "author", first.display = (Value.objectId ann).display :=
      exists_mem_idsIn List.mem_cons_self (by rw [hauthor]; exact List.mem_cons_self) rfl rfl
    have hben : ∃ first ∈ idsIn [post] "friends", first.display = (Value.objectId ben).display :=
      exists_mem_idsIn List.mem_cons_self
        (by rw [hfriends]; exact List.mem_cons_of_mem _ List.mem_cons_self) rfl rfl
    obtain ⟨first, hfirst, -⟩ := hann
    obtain ⟨second, hsecond, -⟩ := hben
    simp only [joins, joined, List.forall_mem_cons]
    exact ⟨List.ne_nil_of_mem hfirst, List.ne_nil_of_mem hsecond, by simp⟩
  have hperm : joins.Perm joins.reverse := (List.reverse_perm joins).symm
  obtain ⟨result, hresult⟩ : ∃ result, (resolve store.source joins [post]).run.run = .ok result :=
    ⟨_, (resolve_eq_ok_iff store _).2 ⟨fun join hjoin _ => exists_answers _ join hjoin, rfl⟩⟩
  exact ⟨joins_eq_plan, hperm, hids, result, hresult,
    (resolve_perm (.inl joins_eq_plan) hperm store [post] result).1 hresult⟩

end PostsWithNames

end DocQuery
