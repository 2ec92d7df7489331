import DocQuery.Proofs.Selection.Covering
import DocQuery.Proofs.Store.Projection

/-!
# What stays when fields are left out

A projection stage that leaves fields out changes nothing at a path that is apart from all of them
(`Projection.candidates_restFields_of_apart`).  But its body is read as one that takes fields if all that
it leaves out lies behind `_id` (`Projection.Asks.isInclusion_of_onlyBehindId`): a group below `_id` counts
like a flag that takes it.  Then only `_id` is left, as a whole.
-/

namespace DocQuery

/-- A path that goes on behind `_id`. -/
def Path.BehindId (path : Path) : Prop := ["_id"] <+: path ∧ path ≠ ["_id"]

/-- A selection names something, and all that it names lies behind `_id`. -/
def Selection.OnlyBehindId (tree : Selection) : Prop :=
  (∃ leaf, leaf ∈ leaves tree) ∧ ∀ leaf ∈ leaves tree, Path.BehindId leaf

namespace Projection

open Selection

variable {relevance : Nat} {tree : Selection} {body doc : Document} {path : Path}

/-! ### What stays -/

/-- At a path that is apart from all fields that are left out everything stays. -/
theorem candidates_restFields_of_apart (h : Asks tree false body)
    (hwritten : Fits (written excluded) tree) (hnested : Nested tree) (hdoc : doc.WellKeyed)
    (hapart : ∀ leaf ∈ leaves tree, Path.Apart leaf path) :
    Path.candidates (restFields relevance doc body) path = Path.candidates doc path :=
  (h.flagBody (fun _ => True) trivial hwritten hnested).candidates_restFields_of_apart
    (fun leaf hleaf => hapart leaf ((h.mem_flagPathsOf_iff hnested).1 hleaf)) hdoc

/-! ### Which of the two a body is -/

theorem eq_singleton_of_keys {tree : Selection} (h : Keyed.Distinct tree) {key : String} {node : Node}
    (hkeys : ∀ other ∈ Keyed.keys tree, other = key) (hmem : (key, node) ∈ tree) :
    tree = [(key, node)] := by
  cases tree with
  | nil => cases hmem
  | cons first rest =>
    obtain ⟨hfirst, hrest⟩ := List.forall_mem_cons.1 hkeys
    cases rest with
    | nil => rw [List.mem_singleton.1 hmem]
    | cons second rest =>
      have hsecond := hrest second.1 List.mem_cons_self
      have hnew := (List.nodup_cons.1 h).1
      exact absurd (List.mem_cons_self) (hfirst.trans hsecond.symm ▸ hnew)

theorem onlyBehindId_iff {m : Int32} (hwritten : Fits (written m) tree) (hnested : Nested tree) :
    tree.OnlyBehindId ↔ ∃ entries, tree = [("_id", .group entries)] := by
  constructor
  · rintro ⟨⟨leaf, hleaf⟩, hall⟩
    have hentry : ∀ entry ∈ tree, ∃ entries, entry = ("_id", .group entries) := by
      rintro ⟨key, node⟩ hentry
      obtain ⟨rest, hrest⟩ := exists_mem_leaves node (hwritten _ hentry).2
      obtain ⟨hbegin, hne⟩ := hall _ (mem_leaves_of_fits_nested hnested.2 hentry hrest)
      obtain rfl : "_id" = key := (List.cons_prefix_cons.1 hbegin).1
      cases node with
      | group entries => exact ⟨entries, rfl⟩
      | marker n =>
        obtain rfl : rest = [] := by simpa [Node.leaves] using hrest
        exact absurd rfl hne
    obtain ⟨first, hfirst, -⟩ := mem_leaves_iff.1 hleaf
    obtain ⟨entries, rfl⟩ := hentry first hfirst
    refine ⟨entries, eq_singleton_of_keys hnested.1 ?_ hfirst⟩
    rintro _ hkey
    obtain ⟨entry, hmem, rfl⟩ := List.mem_map.1 hkey
    obtain ⟨_, rfl⟩ := hentry entry hmem
    rfl
  · rintro ⟨entries, rfl⟩
    have hmem : ("_id", Node.group entries) ∈ [("_id", Node.group entries)] := List.mem_singleton_self _
    constructor
    · obtain ⟨rest, hrest⟩ := exists_mem_leaves _ (hwritten _ hmem).2
      exact ⟨_, mem_leaves_of_fits_nested hnested.2 hmem hrest⟩
    · intro leaf hleaf
      obtain ⟨entry, hentry, rest, hrest, rfl⟩ := mem_leaves_iff.1 hleaf
      obtain rfl := List.mem_singleton.1 hentry
      rw [leaves_group] at hrest
      have hid : Path.ofText "_id" = ["_id"] := Path.ofText_of_plain (by decide)
      rw [hid]
      exact ⟨List.prefix_append _ _, by simpa using ne_nil_of_mem_leaves hrest⟩

/-- Below `_id` alone there are no flags that count. -/
theorem Asks.flags_of_keys (h : Asks tree false body) (hwritten : Fits (written excluded) tree)
    (hnested : Nested tree) (hkeys : ∀ key ∈ Keyed.keys tree, key = "_id") :
    (flagsOfFields true body).takes = false ∧ (flagsOfFields true body).leavesOut = false := by
  have hflags : ∀ P : Flags → Prop, ¬P (flagsOf relevanceFlag) →
      ¬∃ field ∈ body, field.1 ≠ "_id" ∧ P (flagsOf field.2) := by
    intro P hmeta hfield
    obtain ⟨-, key, hkey, hne, -⟩ := (h.exists_mem_iff hwritten hnested hmeta).1 hfield
    exact hne (hkeys key hkey)
  constructor
  · rw [← Bool.not_eq_true, (flagsOfFields_iff body).1]
    exact hflags (fun flags => flags.takes = true) (by simp [flagsOf_relevanceFlag])
  · rw [← Bool.not_eq_true, (flagsOfFields_iff body).2]
    exact hflags (fun flags => flags.leavesOut = true) (by simp [flagsOf_relevanceFlag])

theorem Asks.isInclusion_of_not_onlyBehindId (h : Asks tree false body)
    (hwritten : Fits (written excluded) tree) (hnested : Nested tree)
    (hbehind : ¬tree.OnlyBehindId) : isInclusion body = .ok false := by
  by_cases hkeys : ∀ key ∈ Keyed.keys tree, key = "_id"
  · obtain ⟨htakes, hleaves⟩ := h.flags_of_keys hwritten hnested hkeys
    have hid := h.get? "_id"
    rw [if_neg (by simp)] at hid
    rw [isInclusion]
    simp only [htakes, hleaves, hid]
    cases hnode : tree.lookup "_id" with
    | none => rfl
    | some node =>
      cases node with
      | marker n =>
        obtain rfl : n = excluded := has_marker_iff.1 (hwritten _ (Keyed.mem_of_lookup hnode)).2
        rfl
      | group entries =>
        have hsingle := eq_singleton_of_keys hnested.1 hkeys (Keyed.mem_of_lookup hnode)
        exact absurd ((onlyBehindId_iff hwritten hnested).2 ⟨entries, hsingle⟩) hbehind
  · push Not at hkeys
    obtain ⟨key, hkey, hne⟩ := hkeys
    exact h.isInclusion_excluded hwritten hnested ⟨key, hkey, hne, by simp⟩

/-- A body that leaves out nothing but what lies behind `_id` is read as one that takes `_id`. -/
theorem Asks.isInclusion_of_onlyBehindId (h : Asks tree false body)
    (hwritten : Fits (written excluded) tree) (hnested : Nested tree)
    (hbehind : tree.OnlyBehindId) : isInclusion body = .ok true := by
  obtain ⟨entries, rfl⟩ := (onlyBehindId_iff hwritten hnested).1 hbehind
  obtain ⟨htakes, hleaves⟩ := h.flags_of_keys hwritten hnested (by simp [Keyed.keys])
  have hid : body.get? "_id" = some (Node.group entries).toValue := by
    rw [h.get?, if_neg (by simp)]
    rfl
  rw [isInclusion]
  simp only [htakes, hleaves, hid]
  rfl

/-- Then nothing else is left. -/
theorem Asks.take_of_onlyBehindId (h : Asks tree false body)
    (hwritten : Fits (written excluded) tree) (hnested : Nested tree) (hbehind : tree.OnlyBehindId) :
    take relevance doc body = (doc.get? "_id").toList.map fun id => ("_id", id) := by
  obtain ⟨entries, rfl⟩ := (onlyBehindId_iff hwritten hnested).1 hbehind
  have hid : body.get? "_id" = some (Node.group entries).toValue := by
    rw [h.get?, if_neg (by simp)]
    rfl
  have hothers : body.filter (fun field => field.1 != "_id") = [] := by
    rw [List.filter_eq_nil_iff]
    intro field hfield
    have hget : body.get? field.1 = some field.2 := Keyed.lookup_of_mem h.distinct hfield
    rw [h.get?, if_neg (by simp)] at hget
    obtain ⟨node, hnode, -⟩ := Option.map_eq_some_iff.1 hget
    have hentry := List.mem_singleton.1 (Keyed.mem_of_lookup hnode)
    simp [(Prod.mk.inj hentry).1]
  rw [take, hothers, hid]
  cases doc.get? "_id" <;> rfl

end Projection

end DocQuery
