import DocQuery.Proofs.Selection.Leaves

/-!
# Shapes of selections

A shape says what the keys, the groups and the markers of a selection are like.  Four of them matter:

* `full`: no group is empty;
* `named`: besides, no part of a key is empty;
* `written m`: a text wrote the selection, so it is like that and every marker is `m`;
* `nested`: there are no dotted keys, and no key stands twice.

Merging keeps all of them (`fits_merge`), and writing dotted keys out makes every selection nested
(`nested_canonical`) and leaves it full or written (`full_canonical`, `fits_canonical`).
-/

namespace DocQuery.Selection

/-- What the keys, the groups and the markers of a selection are like. -/
structure Shape where
  key : String → Prop
  group : Selection → Prop
  marker : Int32 → Prop

mutual

def Node.Has (S : Shape) : Node → Prop
  | .marker n => S.marker n
  | .group entries => S.group entries ∧ FitsAll S entries

def FitsAll (S : Shape) : List (String × Node) → Prop
  | [] => True
  | (key, node) :: rest => (S.key key ∧ node.Has S) ∧ FitsAll S rest

end

/-- The keys and the nodes of a selection have a shape. -/
def Fits (S : Shape) (tree : Selection) : Prop := ∀ entry ∈ tree, S.key entry.1 ∧ entry.2.Has S

theorem fitsAll_iff {S : Shape} {tree : Selection} : FitsAll S tree ↔ Fits S tree := by
  rw [Fits]
  induction tree with
  | nil => simp [FitsAll]
  | cons entry rest ih => rw [FitsAll, ih, List.forall_mem_cons]

theorem has_marker_iff {S : Shape} {n : Int32} : (Node.marker n).Has S ↔ S.marker n := by
  rw [Node.Has]

theorem has_group_iff {S : Shape} {entries : Selection} :
    (Node.group entries).Has S ↔ S.group entries ∧ Fits S entries := by
  rw [Node.Has, fitsAll_iff]

theorem fits_nil (S : Shape) : Fits S [] := by simp [Fits]

/-- A shape that asks for less. -/
structure Shape.Implies (S T : Shape) : Prop where
  key : ∀ key, S.key key → T.key key
  group : ∀ entries, S.group entries → T.group entries
  marker : ∀ n, S.marker n → T.marker n

theorem Node.Has.mono {S T : Shape} (h : S.Implies T) {node : Node} : node.Has S → node.Has T := by
  induction node using Node.ind with
  | marker n =>
    rw [has_marker_iff, has_marker_iff]
    exact h.marker n
  | group entries ih =>
    intro hnode
    obtain ⟨hgroup, hfits⟩ := has_group_iff.1 hnode
    refine has_group_iff.2 ⟨h.group entries hgroup, fun entry hentry => ?_⟩
    exact ⟨h.key _ (hfits entry hentry).1, ih entry hentry (hfits entry hentry).2⟩

theorem Fits.mono {S T : Shape} (h : S.Implies T) {tree : Selection} (htree : Fits S tree) :
    Fits T tree :=
  fun entry hentry => ⟨h.key _ (htree entry hentry).1, (htree entry hentry).2.mono h⟩

/-- The shape of a selection in which no group is empty. -/
def full : Shape := ⟨fun _ => True, fun entries => entries ≠ [], fun _ => True⟩

/-- The shape of a selection in which neither a group nor a part of a key is empty. -/
def named : Shape :=
  ⟨fun key => ∀ part ∈ Path.ofText key, part ≠ "", fun entries => entries ≠ [], fun _ => True⟩

/-- A key whose parts are neither empty nor the name of an operator. -/
def WrittenKey (key : String) : Prop := ∀ part ∈ Path.ofText key, part ≠ "" ∧ part ≠ "$meta"

/-- The shape of a selection that a text wrote with a marker. -/
def written (m : Int32) : Shape := ⟨WrittenKey, fun entries => entries ≠ [], fun n => n = m⟩

theorem named_implies_full : named.Implies full where
  key _ _ := trivial
  group _ h := h
  marker _ _ := trivial

theorem written_implies_named (m : Int32) : (written m).Implies named where
  key _ h part hpart := (h part hpart).1
  group _ h := h
  marker _ _ := trivial

theorem written_implies_full (m : Int32) : (written m).Implies full where
  key _ _ := trivial
  group _ h := h
  marker _ _ := trivial

/-- The shape of a selection without dotted keys, in which no key stands twice. -/
def nested : Shape := ⟨Path.Plain, Keyed.Distinct, fun _ => True⟩

/-- A selection without dotted keys, in which no key stands twice. -/
def Nested (tree : Selection) : Prop := Keyed.Distinct tree ∧ Fits nested tree

/-- Induction over the nodes of a selection that a text wrote with a marker, and that has no dotted keys. -/
@[elab_as_elim]
theorem Node.ind_written {m : Int32} {P : Node → Prop} {node : Node} (hwritten : node.Has (written m))
    (hnested : node.Has nested) (marker : P (.marker m))
    (group : ∀ entries : Selection, entries ≠ [] → Fits (written m) entries → Nested entries →
      (∀ key node, (key, node) ∈ entries → P node) → P (.group entries)) : P node := by
  induction node using Node.ind with
  | marker n =>
    obtain rfl : n = m := has_marker_iff.1 hwritten
    exact marker
  | group entries ih =>
    obtain ⟨hne, hwritten⟩ := has_group_iff.1 hwritten
    have hnested := has_group_iff.1 hnested
    exact group entries hne hwritten hnested fun key node hmem =>
      ih _ hmem (hwritten _ hmem).2 (hnested.2 _ hmem).2

/-- A nested selection has the leaves of each of its nodes, behind the key of the node. -/
theorem mem_leaves_of_fits_nested {tree : Selection} (h : Fits nested tree) {key : String}
    {node : Node} (hmem : (key, node) ∈ tree) {rest : Path} (hrest : rest ∈ node.leaves) :
    key :: rest ∈ leaves tree := by
  have hkey := Path.ofText_of_plain (h _ hmem).1
  exact mem_leaves_iff.2 ⟨_, hmem, rest, hrest, by rw [hkey]; rfl⟩

/-- Where no group is empty, a node has a marker somewhere. -/
theorem exists_mem_leaves_of_full (node : Node) : node.Has full → ∃ leaf, leaf ∈ node.leaves := by
  induction node using Node.ind with
  | marker n => exact fun _ => ⟨[], by simp [Node.leaves]⟩
  | group entries ih =>
    intro h
    obtain ⟨hne, hfits⟩ := has_group_iff.1 h
    obtain ⟨entry, rest, rfl⟩ := List.exists_cons_of_ne_nil hne
    obtain ⟨leaf, hleaf⟩ := ih entry List.mem_cons_self (hfits entry List.mem_cons_self).2
    refine ⟨Path.ofText entry.1 ++ leaf, ?_⟩
    rw [leaves_group]
    exact mem_leaves_iff.2 ⟨entry, List.mem_cons_self, leaf, hleaf, rfl⟩

/-- A node that a text wrote has a marker somewhere. -/
theorem exists_mem_leaves {m : Int32} (node : Node) (h : node.Has (written m)) :
    ∃ leaf, leaf ∈ node.leaves :=
  exists_mem_leaves_of_full node (h.mono (written_implies_full m))

/-- Groups keep a shape when an entry is changed or added. -/
structure Shape.Kept (S : Shape) : Prop where
  adjust : ∀ (key : String) (f : Option Node → Node) (tree : Selection), S.group tree →
    S.group (Keyed.adjust key f tree)
  single : ∀ (key : String) (node : Node), S.group [(key, node)]

/-- A shape that asks no more of groups than that they are not empty. -/
theorem Shape.kept_of_group {S : Shape} (h : ∀ entries, S.group entries ↔ entries ≠ []) : S.Kept where
  adjust key f tree _ := (h _).2 (List.ne_nil_of_mem (Keyed.self_mem_adjust key f tree))
  single key node := (h _).2 (by simp)

theorem kept_full : full.Kept := Shape.kept_of_group fun _ => Iff.rfl

theorem kept_written (m : Int32) : (written m).Kept := Shape.kept_of_group fun _ => Iff.rfl

theorem kept_nested : nested.Kept where
  adjust key f tree h := Keyed.Distinct.adjust h key f
  single key node := by simp [nested, Keyed.Distinct, Keyed.keys]

variable {S : Shape}

/-! ### Merging -/

theorem fits_mergeEntry {tree : Selection} {key : String} {node : Node}
    (hunion : ∀ existing : Node, existing.Has S → (existing.union node).Has S)
    (htree : Fits S tree) (hkey : S.key key) (hnode : node.Has S) :
    Fits S (mergeEntry tree key node) := by
  rw [mergeEntry_eq]
  intro entry hentry
  rcases Keyed.mem_adjust hentry with hentry | rfl
  · exact htree entry hentry
  · refine ⟨hkey, ?_⟩
    cases hfound : tree.lookup key with
    | none => exact hnode
    | some existing => exact hunion existing (htree _ (Keyed.mem_of_lookup hfound)).2

theorem group_merge (hS : S.Kept) {tree : Selection} (entries : Selection) (h : S.group tree) :
    S.group (merge tree entries) := by
  induction entries generalizing tree with
  | nil => rwa [merge]
  | cons entry rest ih =>
    rw [merge_cons, mergeEntry_eq]
    exact ih (hS.adjust _ _ _ h)

theorem fits_merge_of {entries : Selection}
    (hunion : ∀ entry ∈ entries, ∀ existing : Node, existing.Has S → entry.2.Has S →
      (existing.union entry.2).Has S)
    {tree : Selection} (htree : Fits S tree) (hentries : Fits S entries) :
    Fits S (merge tree entries) := by
  induction entries generalizing tree with
  | nil => rwa [merge]
  | cons entry rest ih =>
    rw [List.forall_mem_cons] at hunion
    obtain ⟨⟨hkey, hnode⟩, hrest⟩ := List.forall_mem_cons.1 hentries
    have hfirst := fits_mergeEntry (fun existing h => hunion.1 existing h hnode) htree hkey hnode
    rw [merge_cons]
    exact ih hunion.2 hfirst hrest

theorem has_union (hS : S.Kept) (node : Node) :
    ∀ existing : Node, existing.Has S → node.Has S → (existing.union node).Has S := by
  induction node using Node.ind with
  | marker n =>
    intro existing hexisting hnode
    cases existing with
    | marker m => rwa [Node.union]
    | group tree => rwa [Node.union]
  | group entries ih =>
    intro existing hexisting hnode
    cases existing with
    | marker m => rwa [Node.union]
    | group tree =>
      obtain ⟨hgroup, htree⟩ := has_group_iff.1 hexisting
      obtain ⟨_, hentries⟩ := has_group_iff.1 hnode
      rw [Node.union, has_group_iff]
      exact ⟨group_merge hS entries hgroup, fits_merge_of ih htree hentries⟩

theorem fits_merge (hS : S.Kept) {tree entries : Selection} (htree : Fits S tree)
    (hentries : Fits S entries) : Fits S (merge tree entries) :=
  fits_merge_of (fun entry _ => has_union hS entry.2) htree hentries

theorem group_mergePath (hS : S.Kept) {tree : Selection} {path : Path} {node : Node}
    (hpath : path ≠ []) (h : S.group tree ∨ tree = []) : S.group (mergePath tree path node) := by
  have hentry : ∀ (key : String) (node : Node), S.group (mergeEntry tree key node) := by
    intro key node
    rw [mergeEntry_eq]
    rcases h with h | rfl
    · exact hS.adjust _ _ _ h
    · exact hS.single _ _
  cases path with
  | nil => exact absurd rfl hpath
  | cons key path =>
    cases path with
    | nil =>
      rw [mergePath]
      exact hentry key node
    | cons next path =>
      rw [mergePath]
      · exact hentry key _
      · simp

theorem fits_mergePath (hS : S.Kept) {tree : Selection} {path : Path} {node : Node}
    (htree : Fits S tree) (hpath : ∀ key ∈ path, S.key key) (hnode : node.Has S) :
    Fits S (mergePath tree path node) := by
  induction path generalizing tree with
  | nil => rwa [mergePath]
  | cons key path ih =>
    rw [List.forall_mem_cons] at hpath
    have hentry : ∀ node : Node, node.Has S → Fits S (mergeEntry tree key node) := by
      intro node hnode
      have hunion : ∀ existing : Node, existing.Has S → (existing.union node).Has S :=
        fun existing h => has_union hS node existing h hnode
      exact fits_mergeEntry hunion htree hpath.1 hnode
    cases path with
    | nil =>
      rw [mergePath]
      exact hentry node hnode
    | cons next path =>
      rw [mergePath]
      · refine hentry _ (has_group_iff.2 ⟨?_, ih (fits_nil S) hpath.2⟩)
        exact group_mergePath hS (by simp) (.inr rfl)
      · simp

/-! ### Writing dotted keys out -/

section Canonical

variable {T : Shape}

theorem group_canonicalOnto (hS : S.Kept) {done entries : Selection}
    (h : S.group done ∨ done = [] ∧ entries ≠ []) : S.group (canonicalOnto done entries) := by
  induction entries generalizing done with
  | nil => simpa [canonicalOnto] using h
  | cons entry rest ih =>
    obtain ⟨key, node⟩ := entry
    rw [canonicalOnto]
    exact ih (.inl (group_mergePath hS (Path.ofText_ne_nil key) (h.imp_right And.left)))

theorem fits_canonicalOnto_of (hS : S.Kept)
    (hkey : ∀ key, T.key key → ∀ part ∈ Path.ofText key, S.key part) {entries : Selection}
    (hnodes : ∀ entry ∈ entries, entry.2.Has T → entry.2.canonical.Has S) {done : Selection}
    (hdone : Fits S done) (hentries : Fits T entries) : Fits S (canonicalOnto done entries) := by
  induction entries generalizing done with
  | nil => rwa [canonicalOnto]
  | cons entry rest ih =>
    rw [List.forall_mem_cons] at hnodes
    obtain ⟨⟨hfirst, hnode⟩, hrest⟩ := List.forall_mem_cons.1 hentries
    rw [canonicalOnto]
    exact ih hnodes.2 (fits_mergePath hS hdone (hkey _ hfirst) (hnodes.1 hnode)) hrest

theorem has_canonicalNode (hS : S.Kept)
    (hkey : ∀ key, T.key key → ∀ part ∈ Path.ofText key, S.key part)
    (hgroup : ∀ entries, T.group entries → S.group [] ∨ entries ≠ [])
    (hmarker : ∀ n, T.marker n → S.marker n) (node : Node) :
    node.Has T → node.canonical.Has S := by
  induction node using Node.ind with
  | marker n =>
    intro h
    rw [Node.canonical, has_marker_iff]
    exact hmarker n (has_marker_iff.1 h)
  | group entries ih =>
    intro h
    obtain ⟨hentries, hfits⟩ := has_group_iff.1 h
    rw [Node.canonical, has_group_iff]
    refine ⟨group_canonicalOnto hS ((hgroup entries hentries).imp_right fun h => ⟨rfl, h⟩), ?_⟩
    exact fits_canonicalOnto_of hS hkey ih (fits_nil S) hfits

end Canonical

theorem WrittenKey.part {key part : String} (h : WrittenKey key) (hpart : part ∈ Path.ofText key) :
    WrittenKey part := by
  intro inner hinner
  rw [Path.ofText_of_plain (Path.plain_of_mem_ofText hpart), List.mem_singleton] at hinner
  exact hinner ▸ h part hpart

/-- All keys on the way to a marker can be written. -/
theorem writtenKey_of_mem_leaves_of {m : Int32} {tree : Selection}
    (hnodes : ∀ entry ∈ tree, entry.2.Has (written m) →
      ∀ leaf ∈ entry.2.leaves, ∀ key ∈ leaf, WrittenKey key)
    (h : Fits (written m) tree) {leaf : Path} (hleaf : leaf ∈ leaves tree) :
    ∀ key ∈ leaf, WrittenKey key := by
  obtain ⟨entry, hentry, below, hbelow, rfl⟩ := mem_leaves_iff.1 hleaf
  obtain ⟨hkey, hnode⟩ := h entry hentry
  rw [List.forall_mem_append]
  exact ⟨fun part hpart => WrittenKey.part hkey hpart, hnodes entry hentry hnode below hbelow⟩

theorem writtenKey_of_mem_leaves {m : Int32} {tree : Selection} (h : Fits (written m) tree)
    {leaf : Path} (hleaf : leaf ∈ leaves tree) : ∀ key ∈ leaf, WrittenKey key := by
  have hnode : ∀ node : Node, node.Has (written m) →
      ∀ leaf ∈ node.leaves, ∀ key ∈ leaf, WrittenKey key := by
    intro node
    induction node using Node.ind with
    | marker n => simp [Node.leaves]
    | group entries ih =>
      intro hnode leaf hleaf
      rw [leaves_group] at hleaf
      exact writtenKey_of_mem_leaves_of ih (has_group_iff.1 hnode).2 hleaf
  exact writtenKey_of_mem_leaves_of (fun entry _ => hnode entry.2) h hleaf

/-- Where no group is empty, a selection has a leaf behind each of its keys. -/
theorem exists_mem_leaves_of_full_of_ne_nil {tree : Selection} (h : Fits full tree)
    (hne : tree ≠ []) : ∃ leaf, leaf ∈ leaves tree := by
  obtain ⟨entry, rest, rfl⟩ := List.exists_cons_of_ne_nil hne
  obtain ⟨leaf, hleaf⟩ := exists_mem_leaves_of_full entry.2 (h entry List.mem_cons_self).2
  exact ⟨_, mem_leaves_iff.2 ⟨entry, List.mem_cons_self, leaf, hleaf, rfl⟩⟩

theorem exists_mem_leaves_of_ne_nil {m : Int32} {tree : Selection} (h : Fits (written m) tree)
    (hne : tree ≠ []) : ∃ leaf, leaf ∈ leaves tree :=
  exists_mem_leaves_of_full_of_ne_nil (h.mono (written_implies_full m)) hne

/-- Written out, a selection keeps a shape that goes over from keys to their parts. -/
theorem fits_canonical_of (hS : S.Kept)
    (hkey : ∀ key, S.key key → ∀ part ∈ Path.ofText key, S.key part)
    (hgroup : ∀ entries, S.group entries → entries ≠ []) {tree : Selection} (h : Fits S tree) :
    Fits S tree.canonical :=
  fits_canonicalOnto_of hS hkey (fun entry _ => has_canonicalNode hS hkey
    (fun entries hentries => .inr (hgroup entries hentries)) (fun _ h => h) entry.2) (fits_nil S) h

theorem full_canonical {tree : Selection} (h : Fits full tree) : Fits full tree.canonical :=
  fits_canonical_of kept_full (fun _ _ _ _ => trivial) (fun _ h => h) h

/-- Written out, a selection that a text wrote is still like one. -/
theorem fits_canonical {m : Int32} {tree : Selection} (h : Fits (written m) tree) :
    Fits (written m) tree.canonical :=
  fits_canonical_of (kept_written m) (fun _ hkey _ hpart => WrittenKey.part hkey hpart)
    (fun _ h => h) h

/-- Written out, a selection has no dotted keys. -/
theorem nested_canonical (tree : Selection) : Nested tree.canonical := by
  -- nothing has to be known of the selection
  let any : Shape := ⟨fun _ => True, fun _ => True, fun _ => True⟩
  have hany : ∀ node : Node, node.Has any := by
    intro node
    induction node using Node.ind with
    | marker n => exact has_marker_iff.2 trivial
    | group entries ih =>
      refine has_group_iff.2 ⟨trivial, ?_⟩
      intro entry hentry
      exact ⟨trivial, ih entry hentry⟩
  have hkey : ∀ key, any.key key → ∀ part ∈ Path.ofText key, nested.key part :=
    fun _ _ _ => Path.plain_of_mem_ofText
  constructor
  · exact group_canonicalOnto (S := nested) kept_nested (.inl List.nodup_nil)
  · have htree : Fits any tree := fun entry _ => ⟨trivial, hany entry.2⟩
    refine fits_canonicalOnto_of kept_nested hkey ?_ (fits_nil _) htree
    intro entry _
    exact has_canonicalNode kept_nested hkey (fun _ _ => .inl List.nodup_nil) (fun _ _ => trivial) _

end DocQuery.Selection
