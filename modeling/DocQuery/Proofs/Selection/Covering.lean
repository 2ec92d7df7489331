import DocQuery.Proofs.Selection.Shapes

/-!
# Selections that cover the same paths

Without dotted keys no leaf of a selection is a beginning of another one (`eq_of_prefix`), so its leaves
are the shortest of the paths that it covers (`mem_leaves_iff_covers`).  Two such selections that cover
the same paths therefore have the same leaves (`mem_leaves_congr`), whatever was merged to make them.
-/

namespace DocQuery.Selection

theorem eq_of_prefix_of {tree : Selection} (htree : Nested tree)
    (hnodes : ∀ entry ∈ tree, entry.2.Has nested → ∀ leaf ∈ entry.2.leaves,
      ∀ other ∈ entry.2.leaves, leaf <+: other → leaf = other)
    {leaf other : Path} (hleaf : leaf ∈ leaves tree) (hother : other ∈ leaves tree)
    (h : leaf <+: other) : leaf = other := by
  obtain ⟨⟨key, node⟩, hentry, below, hbelow, rfl⟩ := mem_leaves_iff.1 hleaf
  obtain ⟨⟨key', node'⟩, hentry', below', hbelow', rfl⟩ := mem_leaves_iff.1 hother
  rw [Path.ofText_of_plain (htree.2 _ hentry).1, Path.ofText_of_plain (htree.2 _ hentry').1] at h ⊢
  obtain ⟨rfl, hbegin⟩ := List.cons_prefix_cons.1 h
  have hlookup := Keyed.lookup_of_mem htree.1 hentry
  rw [Keyed.lookup_of_mem htree.1 hentry'] at hlookup
  obtain rfl := Option.some.inj hlookup
  exact congrArg (key :: ·)
    (hnodes _ hentry (htree.2 _ hentry).2 below hbelow below' hbelow' hbegin)

/-- Without dotted keys no leaf is a beginning of another one. -/
theorem eq_of_prefix {tree : Selection} (htree : Nested tree) {leaf other : Path}
    (hleaf : leaf ∈ leaves tree) (hother : other ∈ leaves tree) (h : leaf <+: other) :
    leaf = other := by
  have hnode : ∀ node : Node, node.Has nested → ∀ leaf ∈ node.leaves, ∀ other ∈ node.leaves,
      leaf <+: other → leaf = other := by
    intro node
    induction node using Node.ind with
    | marker n => simp [Node.leaves]
    | group entries ih =>
      intro hgroup leaf hleaf other hother h
      rw [leaves_group] at hleaf hother
      exact eq_of_prefix_of (has_group_iff.1 hgroup) ih hleaf hother h
  exact eq_of_prefix_of htree (fun entry _ => hnode entry.2) hleaf hother h

/-- The leaves are the shortest paths that are covered. -/
theorem mem_leaves_iff_covers {tree : Selection} (htree : Nested tree) {path : Path} :
    path ∈ leaves tree ↔
      Covers tree path ∧ ∀ shorter, Covers tree shorter → shorter <+: path → shorter = path := by
  constructor
  · intro hpath
    refine ⟨covers_of_mem hpath, ?_⟩
    rintro shorter ⟨leaf, hleaf, hbegin⟩ hshorter
    have hsame : leaf = path := eq_of_prefix htree hleaf hpath (hbegin.trans hshorter)
    exact hshorter.eq_of_length_le (hsame ▸ hbegin.length_le)
  · rintro ⟨⟨leaf, hleaf, hbegin⟩, hshortest⟩
    exact hshortest leaf (covers_of_mem hleaf) hbegin ▸ hleaf

/-- Selections without dotted keys that cover the same paths have the same leaves. -/
theorem mem_leaves_congr {tree other : Selection} (htree : Nested tree) (hother : Nested other)
    (h : ∀ path, Covers tree path ↔ Covers other path) (path : Path) :
    path ∈ leaves tree ↔ path ∈ leaves other := by
  simp only [mem_leaves_iff_covers htree, mem_leaves_iff_covers hother, h]

/-- A union covers what one of its parts covers, and nothing else. -/
theorem covers_merge_iff {tree other : Selection} {path : Path} :
    Covers (tree.merge other) path ↔ Covers tree path ∨ Covers other path := by
  refine ⟨?_, covers_merge⟩
  rintro ⟨leaf, hleaf, hbegin⟩
  exact (mem_leaves_merge hleaf).imp (fun h => ⟨leaf, h, hbegin⟩) fun h => ⟨leaf, h, hbegin⟩

theorem covers_canonical_iff {tree : Selection} {path : Path} :
    Covers tree.canonical path ↔ Covers tree path :=
  ⟨fun ⟨leaf, hleaf, hbegin⟩ => ⟨leaf, mem_leaves_canonical hleaf, hbegin⟩, covers_canonical⟩

/-- Written out, selections that cover the same paths have the same leaves. -/
theorem mem_leaves_canonical_congr {tree other : Selection}
    (h : ∀ path, Covers tree path ↔ Covers other path) (path : Path) :
    path ∈ leaves tree.canonical ↔ path ∈ leaves other.canonical := by
  refine mem_leaves_congr (nested_canonical tree) (nested_canonical other) (fun path => ?_) path
  rw [covers_canonical_iff, covers_canonical_iff, h]

/-- What a selection without dotted keys covers behind a key is what its node there covers. -/
theorem covers_key_iff {tree : Selection} (htree : Nested tree) {key : String} {rest : Path} :
    Covers tree (key :: rest) ↔ ∃ node, tree.lookup key = some node ∧ node.Covers rest := by
  rw [covers_iff]
  constructor
  · rintro ⟨⟨name, node⟩, hentry, below, hbelow, hpath⟩
    rw [Path.ofText_of_plain (htree.2 _ hentry).1, List.singleton_append, List.cons.injEq] at hpath
    obtain ⟨rfl, rfl⟩ := hpath
    exact ⟨node, Keyed.lookup_of_mem htree.1 hentry, hbelow⟩
  · rintro ⟨node, hnode, hrest⟩
    have hmem := Keyed.mem_of_lookup hnode
    exact ⟨_, hmem, rest, hrest, by rw [Path.ofText_of_plain (htree.2 _ hmem).1]; rfl⟩

theorem Covers.ne_nil {tree : Selection} {path : Path} (h : Covers tree path) : path ≠ [] := by
  rintro rfl
  obtain ⟨leaf, hleaf, hbegin⟩ := h
  exact ne_nil_of_mem_leaves hleaf (List.prefix_nil.1 hbegin)

theorem node_covers_group_iff {entries : Selection} {path : Path} :
    (Node.group entries).Covers path ↔ Covers entries path := by
  rw [Node.Covers, leaves_group, Covers]

end DocQuery.Selection
