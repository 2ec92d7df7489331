import DocQuery.Proofs.Selection.Shapes

/-!
# Taking fields away

What `without` leaves of a selection is apart from all that is taken away: no leaf that is left is a
beginning of a leaf taken away, or goes on behind one (`apart_without`).  It has no leaf that was not
there (`mem_leaves_without`) and is still like one that a text wrote (`fits_without`).
-/

namespace DocQuery.Selection

/-! ### Where a path leads -/

theorem apart_of_lookup_eq_none {tree : Selection} {key : String} {rest : Path}
    (htree : Nested tree) (h : tree.lookup key = none) :
    ∀ leaf ∈ leaves tree, Path.Apart (key :: rest) leaf := by
  intro leaf hleaf
  obtain ⟨⟨first, node⟩, hentry, below, -, rfl⟩ := mem_leaves_iff.1 hleaf
  rw [Path.ofText_of_plain (htree.2 _ hentry).1]
  refine Path.apart_cons_of_ne ?_
  rintro rfl
  exact Keyed.lookup_eq_none_iff.1 h (List.mem_map.2 ⟨_, hentry, rfl⟩)

/-- Behind a group, the leaves are apart from a path or those of the group. -/
theorem apart_or_mem_of_lookup_eq_group {tree sub : Selection} {key : String} (htree : Nested tree)
    (h : tree.lookup key = some (.group sub)) {leaf : Path} (hleaf : leaf ∈ leaves tree) :
    (∀ rest, Path.Apart (key :: rest) leaf) ∨ ∃ below ∈ leaves sub, leaf = key :: below := by
  obtain ⟨⟨first, node⟩, hentry, below, hbelow, rfl⟩ := mem_leaves_iff.1 hleaf
  rw [Path.ofText_of_plain (htree.2 _ hentry).1]
  by_cases hfirst : key = first
  · subst hfirst
    have hlookup := Keyed.lookup_of_mem htree.1 hentry
    rw [h] at hlookup
    obtain rfl := Option.some.inj hlookup
    exact .inr ⟨below, by rwa [← leaves_group], rfl⟩
  · exact .inl fun rest => Path.apart_cons_of_ne hfirst

theorem Nested.sub {tree sub : Selection} {key : String} (htree : Nested tree)
    (h : tree.lookup key = some (.group sub)) : Nested sub :=
  has_group_iff.1 (htree.2 _ (Keyed.mem_of_lookup h)).2

theorem apart_of_reach_outside {tree : Selection} {path : Path} (htree : Nested tree)
    (h : reach tree path = .outside) : ∀ leaf ∈ leaves tree, Path.Apart path leaf := by
  induction path generalizing tree with
  | nil => simp [reach] at h
  | cons key rest ih =>
    rw [reach] at h
    split at h
    · next hlookup => exact apart_of_lookup_eq_none htree hlookup
    · cases h
    · next sub hlookup =>
      intro leaf hleaf
      rcases apart_or_mem_of_lookup_eq_group htree hlookup hleaf with h' | ⟨below, hbelow, rfl⟩
      · exact h' rest
      · exact Path.apart_cons_iff.2 (ih (htree.sub hlookup) h below hbelow)

theorem apart_or_mem_of_reach_inside {tree sub : Selection} {path : Path} (htree : Nested tree)
    (h : reach tree path = .inside sub) :
    ∀ leaf ∈ leaves tree, Path.Apart path leaf ∨ ∃ below ∈ leaves sub, leaf = path ++ below := by
  induction path generalizing tree with
  | nil =>
    rw [reach] at h
    cases h
    exact fun leaf hleaf => .inr ⟨leaf, hleaf, rfl⟩
  | cons key rest ih =>
    rw [reach] at h
    split at h
    · cases h
    · cases h
    · next group hlookup =>
      intro leaf hleaf
      rcases apart_or_mem_of_lookup_eq_group htree hlookup hleaf with h' | ⟨below, hbelow, rfl⟩
      · exact .inl (h' rest)
      · rcases ih (htree.sub hlookup) h below hbelow with h' | ⟨inner, hinner, rfl⟩
        · exact .inl (Path.apart_cons_iff.2 h')
        · exact .inr ⟨inner, hinner, rfl⟩

/-! ### What is left -/

theorem mem_prunedEntries_iff {removal entries : Selection} {entry : String × Node} :
    entry ∈ prunedEntries removal entries ↔
      ∃ node, (entry.1, node) ∈ entries ∧
        node.pruned (reach removal (Path.ofText entry.1)) = some entry.2 := by
  induction entries with
  | nil => simp [prunedEntries]
  | cons first rest ih =>
    obtain ⟨key, node⟩ := first
    obtain ⟨name, left⟩ := entry
    have hhead : (∃ other, (name, other) = (key, node) ∧
        other.pruned (reach removal (Path.ofText name)) = some left) ↔
          name = key ∧ node.pruned (reach removal (Path.ofText key)) = some left := by
      constructor
      · rintro ⟨_, ⟨⟩, h⟩
        exact ⟨rfl, h⟩
      · rintro ⟨rfl, h⟩
        exact ⟨node, rfl, h⟩
    simp only [List.mem_cons, or_and_right, exists_or, hhead]
    rw [prunedEntries]
    split
    · next kept hkept =>
      rw [List.mem_cons, ih, hkept]
      refine or_congr_left ?_
      simp only [Prod.mk.injEq, Option.some.injEq]
      exact and_congr_right fun _ => eq_comm
    · next hnone =>
      rw [ih, hnone]
      simp

/-- What is left of a node is the node itself, or what is left of its entries. -/
theorem pruned_eq_some_iff {node left : Node} {place : Reach} :
    node.pruned place = some left ↔
      place = .outside ∧ node = left ∨
        ∃ entries removal, node = .group entries ∧ place = .inside removal ∧
          prunedEntries (canonical removal) entries ≠ [] ∧
          left = .group (prunedEntries (canonical removal) entries) := by
  cases place with
  | outside => simp [Node.pruned]
  | covered => simp [Node.pruned]
  | inside removal =>
    cases node with
    | marker n => simp [Node.pruned]
    | group entries =>
      rw [Node.pruned]
      cases h : prunedEntries (canonical removal) entries with
      | nil => simp [h]
      | cons first rest =>
        constructor
        · intro hleft
          refine .inr ⟨entries, removal, rfl, rfl, by simp [h], ?_⟩
          rw [h]
          exact (Option.some.inj hleft).symm
        · rintro (⟨hplace, -⟩ | ⟨_, _, hnode, hplace, -, rfl⟩)
          · cases hplace
          · cases hnode
            cases hplace
            rw [h]

theorem mem_leaves_pruned (node : Node) : ∀ (place : Reach) (left : Node),
    node.pruned place = some left → ∀ leaf ∈ left.leaves, leaf ∈ node.leaves := by
  induction node using Node.ind with
  | marker n =>
    intro place left h leaf hleaf
    rcases pruned_eq_some_iff.1 h with ⟨-, rfl⟩ | ⟨_, _, h, -⟩
    · exact hleaf
    · cases h
  | group entries ih =>
    intro place left h leaf hleaf
    rcases pruned_eq_some_iff.1 h with ⟨-, rfl⟩ | ⟨_, removal, hnode, -, -, rfl⟩
    · exact hleaf
    · cases hnode
      rw [leaves_group] at hleaf ⊢
      obtain ⟨entry, hentry, below, hbelow, rfl⟩ := mem_leaves_iff.1 hleaf
      obtain ⟨inner, hinner, hpruned⟩ := mem_prunedEntries_iff.1 hentry
      exact mem_leaves_iff.2 ⟨_, hinner, below, ih _ hinner _ _ hpruned below hbelow, rfl⟩

/-- No leaf of what is left was not there. -/
theorem mem_leaves_without {tree removal : Selection} {leaf : Path}
    (h : leaf ∈ leaves (tree.without removal)) : leaf ∈ leaves tree := by
  obtain ⟨entry, hentry, below, hbelow, rfl⟩ := mem_leaves_iff.1 h
  obtain ⟨node, hnode, hpruned⟩ := mem_prunedEntries_iff.1 hentry
  exact mem_leaves_iff.2 ⟨_, hnode, below, mem_leaves_pruned node _ _ hpruned below hbelow, rfl⟩

theorem apart_prunedEntries_of {removal entries : Selection} (hremoval : Nested removal)
    (hnodes : ∀ entry ∈ entries, ∀ (tree : Selection) (path : Path) (left : Node), Nested tree →
      entry.2.pruned (reach tree path) = some left →
        ∀ leaf ∈ left.leaves, ∀ taken ∈ leaves tree, Path.Apart (path ++ leaf) taken) :
    ∀ leaf ∈ leaves (prunedEntries removal entries), ∀ taken ∈ leaves removal,
      Path.Apart leaf taken := by
  intro leaf hleaf taken htaken
  obtain ⟨entry, hentry, below, hbelow, rfl⟩ := mem_leaves_iff.1 hleaf
  obtain ⟨node, hnode, hpruned⟩ := mem_prunedEntries_iff.1 hentry
  exact hnodes _ hnode removal _ _ hremoval hpruned below hbelow taken htaken

theorem apart_pruned (node : Node) : ∀ (tree : Selection) (path : Path) (left : Node),
    Nested tree → node.pruned (reach tree path) = some left →
      ∀ leaf ∈ left.leaves, ∀ taken ∈ leaves tree, Path.Apart (path ++ leaf) taken := by
  induction node using Node.ind with
  | marker n =>
    intro tree path left htree h leaf hleaf taken htaken
    rcases pruned_eq_some_iff.1 h with ⟨hplace, rfl⟩ | ⟨_, _, h, -⟩
    · have hpath := apart_of_reach_outside htree hplace taken htaken
      exact hpath.append_left leaf
    · cases h
  | group entries ih =>
    intro tree path left htree h leaf hleaf taken htaken
    rcases pruned_eq_some_iff.1 h with ⟨hplace, rfl⟩ | ⟨_, sub, hnode, hplace, -, rfl⟩
    · have hpath := apart_of_reach_outside htree hplace taken htaken
      exact hpath.append_left leaf
    · cases hnode
      rw [leaves_group] at hleaf
      rcases apart_or_mem_of_reach_inside htree hplace taken htaken with hpath | ⟨below, hbelow, rfl⟩
      · exact hpath.append_left leaf
      · -- inside of the group, what is taken away is written out once more
        have hcovers := covers_canonical (covers_of_mem hbelow)
        have hapart := apart_prunedEntries_of (nested_canonical sub) ih leaf hleaf
        rw [Path.apart_append_iff]
        exact hcovers.apart hapart

/-- Every leaf that is left is apart from every leaf taken away. -/
theorem apart_without {tree removal : Selection} {leaf taken : Path}
    (hleaf : leaf ∈ leaves (tree.without removal)) (htaken : taken ∈ leaves removal) :
    Path.Apart leaf taken := by
  have hcovers := covers_canonical (covers_of_mem htaken)
  have hapart := apart_prunedEntries_of (nested_canonical removal)
    (fun entry _ => apart_pruned entry.2) leaf hleaf
  exact hcovers.apart hapart

/-- The keys of what is left stand in their order. -/
theorem keys_prunedEntries_sublist (removal entries : Selection) :
    (Keyed.keys (prunedEntries removal entries)).Sublist (Keyed.keys entries) := by
  induction entries with
  | nil => exact List.Sublist.refl []
  | cons entry rest ih =>
    obtain ⟨key, node⟩ := entry
    rw [prunedEntries]
    split
    · exact ih.cons_cons key
    · exact ih.cons key

/-- Groups keep a shape when entries are taken out and some are left. -/
def Shape.KeptByTaking (S : Shape) : Prop :=
  ∀ entries left : Selection, (Keyed.keys left).Sublist (Keyed.keys entries) → left ≠ [] →
    S.group entries → S.group left

theorem keptByTaking_full : full.KeptByTaking := fun _ _ _ hne _ => hne

theorem keptByTaking_written (m : Int32) : (written m).KeptByTaking := fun _ _ _ hne _ => hne

section Shape

variable {S : Shape} (hS : S.KeptByTaking)

include hS

theorem has_pruned (node : Node) : ∀ (place : Reach) (left : Node),
    node.Has S → node.pruned place = some left → left.Has S := by
  induction node using Node.ind with
  | marker n =>
    intro place left hnode h
    rcases pruned_eq_some_iff.1 h with ⟨-, rfl⟩ | ⟨_, _, h, -⟩
    · exact hnode
    · cases h
  | group entries ih =>
    intro place left hnode h
    rcases pruned_eq_some_iff.1 h with ⟨-, rfl⟩ | ⟨_, removal, heq, -, hne, rfl⟩
    · exact hnode
    · cases heq
      obtain ⟨hgroup, hentries⟩ := has_group_iff.1 hnode
      refine has_group_iff.2 ⟨hS _ _ (keys_prunedEntries_sublist _ entries) hne hgroup, ?_⟩
      intro entry hentry
      obtain ⟨inner, hinner, hpruned⟩ := mem_prunedEntries_iff.1 hentry
      exact ⟨(hentries _ hinner).1, ih _ hinner _ _ (hentries _ hinner).2 hpruned⟩

theorem fits_without_of {tree : Selection} (removal : Selection) (h : Fits S tree) :
    Fits S (tree.without removal) := by
  intro entry hentry
  obtain ⟨node, hnode, hpruned⟩ := mem_prunedEntries_iff.1 hentry
  exact ⟨(h _ hnode).1, has_pruned hS node _ _ (h _ hnode).2 hpruned⟩

end Shape

/-- Where no group is empty, none becomes so. -/
theorem full_without {tree : Selection} (removal : Selection) (h : Fits full tree) :
    Fits full (tree.without removal) := fits_without_of keptByTaking_full removal h

/-- What is left of a selection that a text wrote is like one. -/
theorem fits_without {m : Int32} {tree : Selection} (removal : Selection)
    (h : Fits (written m) tree) : Fits (written m) (tree.without removal) :=
  fits_without_of (keptByTaking_written m) removal h

/-! ### Where a path ends -/

theorem covers_of_reach_covered {tree : Selection} {path : Path} (htree : Nested tree)
    (h : reach tree path = .covered) : Covers tree path := by
  induction path generalizing tree with
  | nil => cases h
  | cons key rest ih =>
    rw [reach] at h
    split at h
    · cases h
    · next n hlookup =>
      refine ⟨[key], ?_, by simp⟩
      exact mem_leaves_of_fits_nested htree.2 (Keyed.mem_of_lookup hlookup) (by simp [Node.leaves])
    · next sub hlookup =>
      obtain ⟨leaf, hleaf, hbegin⟩ := ih (htree.sub hlookup) h
      refine ⟨key :: leaf, ?_, List.cons_prefix_cons.2 ⟨rfl, hbegin⟩⟩
      exact mem_leaves_of_fits_nested htree.2 (Keyed.mem_of_lookup hlookup) (by rwa [leaves_group])

/-- The group at which a path ends holds leaves behind the path. -/
theorem mem_leaves_of_reach_inside {tree sub : Selection} {path : Path} (htree : Nested tree)
    (h : reach tree path = .inside sub) {below : Path} (hbelow : below ∈ leaves sub) :
    path ++ below ∈ leaves tree := by
  induction path generalizing tree with
  | nil =>
    cases h
    exact hbelow
  | cons key rest ih =>
    rw [reach] at h
    split at h
    · cases h
    · cases h
    · next group hlookup =>
      refine mem_leaves_of_fits_nested htree.2 (Keyed.mem_of_lookup hlookup) ?_
      rw [leaves_group]
      exact ih (htree.sub hlookup) h

/-- The group at which a path ends has the shape of the selection. -/
theorem fits_of_reach_inside {S : Shape} {tree sub : Selection} {path : Path} (hpath : path ≠ [])
    (htree : Fits S tree) (h : reach tree path = .inside sub) : S.group sub ∧ Fits S sub := by
  induction path generalizing tree with
  | nil => exact absurd rfl hpath
  | cons key rest ih =>
    rw [reach] at h
    split at h
    · cases h
    · cases h
    · next group hlookup =>
      have hgroup := has_group_iff.1 (htree _ (Keyed.mem_of_lookup hlookup)).2
      cases rest with
      | nil =>
        cases h
        exact hgroup
      | cons next rest => exact ih (by simp) hgroup.2 h

end DocQuery.Selection
