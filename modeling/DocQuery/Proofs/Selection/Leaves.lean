import DocQuery.Proofs.Keyed
import DocQuery.Proofs.Path.Text
import DocQuery.Selection.Basic

/-!
# The fields that a selection names

The leaves of a selection are the paths of its markers, where a dotted key counts as its keys.  A
selection covers a path if one of its leaves is a beginning of it.  Merging and writing dotted keys
out neither adds a leaf nor uncovers one (`mem_leaves_merge`, `covers_merge`, `mem_leaves_canonical`,
`covers_canonical`).
-/

namespace DocQuery.Selection

mutual

/-- The paths of the markers in a node, from the node on. -/
def Node.leaves : Node → List Path
  | .marker _ => [[]]
  | .group entries => leaves entries

/-- The paths of the markers in a selection. -/
def leaves : List (String × Node) → List Path
  | [] => []
  | (key, node) :: rest => node.leaves.map (Path.ofText key ++ ·) ++ leaves rest

end

/-- Induction over nodes: what holds of the nodes in a group is known of each of them. -/
theorem Node.ind {P : Node → Prop} (marker : ∀ n, P (.marker n))
    (group : ∀ entries : List (String × Node), (∀ entry ∈ entries, P entry.2) → P (.group entries)) :
    ∀ node, P node := by
  intro node
  apply Node.rec (motive_1 := P) (motive_2 := fun entries => ∀ entry ∈ entries, P entry.2)
    (motive_3 := fun entry => P entry.2)
  · exact marker
  · exact group
  · intro entry h
    cases h
  · intro entry rest hentry hrest
    exact List.forall_mem_cons.2 ⟨hentry, hrest⟩
  · intro key node h
    exact h

theorem mem_leaves_cons {key : String} {node : Node} {rest : Selection} {path : Path} :
    path ∈ leaves ((key, node) :: rest) ↔
      (∃ below ∈ node.leaves, path = Path.ofText key ++ below) ∨ path ∈ leaves rest := by
  rw [leaves, List.mem_append, List.mem_map]
  simp only [eq_comm]

theorem mem_leaves_iff {tree : Selection} {path : Path} :
    path ∈ leaves tree ↔
      ∃ entry ∈ tree, ∃ rest ∈ entry.2.leaves, path = Path.ofText entry.1 ++ rest := by
  induction tree with
  | nil => simp [leaves]
  | cons entry rest ih => rw [mem_leaves_cons, ih, List.exists_mem_cons_iff]

theorem ne_nil_of_mem_leaves {tree : Selection} {path : Path} (h : path ∈ leaves tree) :
    path ≠ [] := by
  obtain ⟨entry, _, rest, _, rfl⟩ := mem_leaves_iff.1 h
  exact List.append_ne_nil_of_left_ne_nil (Path.ofText_ne_nil _) rest

theorem plain_of_mem_leaves_of {tree : Selection}
    (hnodes : ∀ entry ∈ tree, ∀ leaf ∈ entry.2.leaves, ∀ key ∈ leaf, Path.Plain key)
    {leaf : Path} (h : leaf ∈ leaves tree) : ∀ key ∈ leaf, Path.Plain key := by
  obtain ⟨entry, hentry, rest, hrest, rfl⟩ := mem_leaves_iff.1 h
  rw [List.forall_mem_append]
  exact ⟨fun _ => Path.plain_of_mem_ofText, hnodes entry hentry rest hrest⟩

theorem plain_of_mem_leaves {tree : Selection} {leaf : Path} (h : leaf ∈ leaves tree) :
    ∀ key ∈ leaf, Path.Plain key := by
  have hnode : ∀ node : Node, ∀ leaf ∈ node.leaves, ∀ key ∈ leaf, Path.Plain key := by
    intro node
    induction node using Node.ind with
    | marker n => simp [Node.leaves]
    | group entries ih => exact fun leaf hleaf => plain_of_mem_leaves_of ih hleaf
  exact plain_of_mem_leaves_of (fun entry _ => hnode entry.2) h

/-- A leaf of a selection is a beginning of the path, or the path itself. -/
def Covers (tree : Selection) (path : Path) : Prop := ∃ leaf ∈ leaves tree, leaf <+: path

def Node.Covers (node : Node) (path : Path) : Prop := ∃ leaf ∈ node.leaves, leaf <+: path

theorem covers_marker (n : Int32) (path : Path) : (Node.marker n).Covers path :=
  ⟨[], by simp [Node.leaves], path.nil_prefix⟩

theorem covers_of_mem {tree : Selection} {path : Path} (h : path ∈ leaves tree) :
    Covers tree path := ⟨path, h, path.prefix_refl⟩

theorem Covers.of_longer {tree : Selection} {path longer : Path} (h : Covers tree path)
    (hpath : path <+: longer) : Covers tree longer := by
  obtain ⟨leaf, hleaf, hbegin⟩ := h
  exact ⟨leaf, hleaf, hbegin.trans hpath⟩

/-- A path is apart from what is covered if it is apart from the leaves. -/
theorem Covers.apart {tree : Selection} {path other : Path} (h : Covers tree path)
    (hapart : ∀ leaf ∈ leaves tree, Path.Apart other leaf) : Path.Apart other path := by
  obtain ⟨leaf, hleaf, hbegin⟩ := h
  exact (hapart leaf hleaf).of_longer hbegin

theorem covers_iff {tree : Selection} {path : Path} :
    Covers tree path ↔
      ∃ entry ∈ tree, ∃ rest, entry.2.Covers rest ∧ path = Path.ofText entry.1 ++ rest := by
  constructor
  · rintro ⟨leaf, hleaf, tail, rfl⟩
    obtain ⟨entry, hentry, rest, hrest, rfl⟩ := mem_leaves_iff.1 hleaf
    exact ⟨entry, hentry, rest ++ tail, ⟨rest, hrest, List.prefix_append _ _⟩, by simp⟩
  · rintro ⟨entry, hentry, rest, ⟨leaf, hleaf, hbegin⟩, rfl⟩
    refine ⟨Path.ofText entry.1 ++ leaf, ?_, ?_⟩
    · exact mem_leaves_iff.2 ⟨entry, hentry, leaf, hleaf, rfl⟩
    · exact (List.prefix_append_right_inj _).2 hbegin

theorem covers_cons {key : String} {node : Node} {rest : Selection} {path : Path} :
    Covers ((key, node) :: rest) path ↔
      (∃ below, node.Covers below ∧ path = Path.ofText key ++ below) ∨ Covers rest path := by
  rw [covers_iff, covers_iff, List.exists_mem_cons_iff]

/-! ### Merging -/

/-- What a key holds after one more node is merged under it. -/
def unionWith (node : Node) : Option Node → Node
  | none => node
  | some existing => existing.union node

theorem mergeEntry_eq (tree : Selection) (key : String) (node : Node) :
    mergeEntry tree key node = Keyed.adjust key (unionWith node) tree := by
  rw [mergeEntry, merge, merge]
  refine congrArg (fun f => Keyed.adjust key f tree) ?_
  funext found
  cases found <;> rfl

/-- An entry with a new key comes last. -/
theorem mergeEntry_of_notMem {tree : Selection} {key : String} (h : key ∉ Keyed.keys tree)
    (node : Node) : mergeEntry tree key node = tree ++ [(key, node)] := by
  rw [mergeEntry_eq, Keyed.adjust_of_notMem h]
  rfl

theorem merge_cons (tree : Selection) (key : String) (node : Node) (rest : Selection) :
    merge tree ((key, node) :: rest) = merge (mergeEntry tree key node) rest := by
  rw [mergeEntry, merge, merge, merge]

theorem mem_leaves_mergeEntry {tree : Selection} {key : String} {node : Node} {path : Path}
    (hunion : ∀ existing : Node, ∀ path ∈ (existing.union node).leaves,
      path ∈ existing.leaves ∨ path ∈ node.leaves)
    (h : path ∈ leaves (mergeEntry tree key node)) :
    path ∈ leaves tree ∨ ∃ rest ∈ node.leaves, path = Path.ofText key ++ rest := by
  rw [mergeEntry_eq] at h
  obtain ⟨entry, hentry, rest, hrest, rfl⟩ := mem_leaves_iff.1 h
  rcases Keyed.mem_adjust hentry with hentry | rfl
  · exact .inl (mem_leaves_iff.2 ⟨entry, hentry, rest, hrest, rfl⟩)
  · cases hfound : tree.lookup key with
    | none =>
      rw [hfound] at hrest
      exact .inr ⟨rest, hrest, rfl⟩
    | some existing =>
      rw [hfound] at hrest
      rcases hunion existing rest hrest with hrest | hrest
      · exact .inl (mem_leaves_iff.2 ⟨_, Keyed.mem_of_lookup hfound, rest, hrest, rfl⟩)
      · exact .inr ⟨rest, hrest, rfl⟩

theorem mem_leaves_merge_of {entries : Selection}
    (hunion : ∀ entry ∈ entries, ∀ existing : Node, ∀ path ∈ (existing.union entry.2).leaves,
      path ∈ existing.leaves ∨ path ∈ entry.2.leaves)
    {tree : Selection} {path : Path} (h : path ∈ leaves (merge tree entries)) :
    path ∈ leaves tree ∨ path ∈ leaves entries := by
  induction entries generalizing tree with
  | nil =>
    rw [merge] at h
    exact .inl h
  | cons entry rest ih =>
    obtain ⟨key, node⟩ := entry
    rw [List.forall_mem_cons] at hunion
    rw [merge_cons] at h
    rw [mem_leaves_cons]
    rcases ih hunion.2 h with h | h
    · exact (mem_leaves_mergeEntry hunion.1 h).imp_right .inl
    · exact .inr (.inr h)

/-- A union has no leaf of its own. -/
theorem mem_leaves_union (node : Node) : ∀ existing : Node,
    ∀ path ∈ (existing.union node).leaves, path ∈ existing.leaves ∨ path ∈ node.leaves := by
  induction node using Node.ind with
  | marker n =>
    intro existing path h
    cases existing <;> (rw [Node.union] at h; simp_all [Node.leaves])
  | group entries ih =>
    intro existing path h
    cases existing with
    | marker n =>
      rw [Node.union] at h
      exact .inl h
    | group tree =>
      rw [Node.union] at h
      exact mem_leaves_merge_of ih h

theorem mem_leaves_merge {tree entries : Selection} {path : Path}
    (h : path ∈ leaves (merge tree entries)) : path ∈ leaves tree ∨ path ∈ leaves entries :=
  mem_leaves_merge_of (fun entry _ => mem_leaves_union entry.2) h

theorem covers_mergeEntry {tree : Selection} {key : String} {node : Node} {path : Path}
    (hunion : ∀ (existing : Node) (path : Path), existing.Covers path ∨ node.Covers path →
      (existing.union node).Covers path)
    (h : Covers tree path ∨ ∃ rest, node.Covers rest ∧ path = Path.ofText key ++ rest) :
    Covers (mergeEntry tree key node) path := by
  rw [mergeEntry_eq, covers_iff]
  have hself := Keyed.self_mem_adjust key (unionWith node) tree
  rcases h with h | ⟨rest, hrest, rfl⟩
  · obtain ⟨entry, hentry, rest, hrest, rfl⟩ := covers_iff.1 h
    rcases Keyed.mem_adjust_of_mem (f := unionWith node) hentry with
      hentry | ⟨hkey, hlookup⟩
    · exact ⟨entry, hentry, rest, hrest, rfl⟩
    · rw [hlookup] at hself
      exact ⟨_, hself, rest, hunion entry.2 rest (.inl hrest), by rw [hkey]⟩
  · refine ⟨_, hself, rest, ?_, rfl⟩
    cases tree.lookup key with
    | none => exact hrest
    | some existing => exact hunion existing rest (.inr hrest)

theorem covers_merge_of {entries : Selection}
    (hunion : ∀ entry ∈ entries, ∀ (existing : Node) (path : Path),
      existing.Covers path ∨ entry.2.Covers path → (existing.union entry.2).Covers path)
    {tree : Selection} {path : Path} (h : Covers tree path ∨ Covers entries path) :
    Covers (merge tree entries) path := by
  induction entries generalizing tree with
  | nil =>
    rw [merge]
    rcases h with h | ⟨leaf, hleaf, _⟩
    · exact h
    · simp [leaves] at hleaf
  | cons entry rest ih =>
    obtain ⟨key, node⟩ := entry
    rw [List.forall_mem_cons] at hunion
    rw [merge_cons]
    rw [covers_cons] at h
    rcases h with h | h | h
    · exact ih hunion.2 (.inl (covers_mergeEntry hunion.1 (.inl h)))
    · exact ih hunion.2 (.inl (covers_mergeEntry hunion.1 (.inr h)))
    · exact ih hunion.2 (.inr h)

/-- A union covers what one of its parts covers. -/
theorem covers_union (node : Node) : ∀ (existing : Node) (path : Path),
    existing.Covers path ∨ node.Covers path → (existing.union node).Covers path := by
  induction node using Node.ind with
  | marker n =>
    intro existing path _
    refine ⟨[], ?_, path.nil_prefix⟩
    cases existing <;> simp [Node.union, Node.leaves]
  | group entries ih =>
    intro existing path h
    cases existing with
    | marker n => exact ⟨[], by simp [Node.union, Node.leaves], path.nil_prefix⟩
    | group tree =>
      rw [Node.union]
      exact covers_merge_of ih h

theorem covers_merge {tree entries : Selection} {path : Path}
    (h : Covers tree path ∨ Covers entries path) : Covers (merge tree entries) path :=
  covers_merge_of (fun entry _ => covers_union entry.2) h

/-! ### Merging at a path -/

theorem leaves_group (entries : Selection) : (Node.group entries).leaves = leaves entries := by
  rw [Node.leaves]

theorem mem_leaves_mergePath {tree : Selection} {path leaf : Path} {node : Node}
    (hplain : ∀ key ∈ path, Path.Plain key) (h : leaf ∈ leaves (mergePath tree path node)) :
    leaf ∈ leaves tree ∨ ∃ rest ∈ node.leaves, leaf = path ++ rest := by
  induction path generalizing tree leaf with
  | nil =>
    rw [mergePath] at h
    exact .inl h
  | cons key path ih =>
    rw [List.forall_mem_cons] at hplain
    cases path with
    | nil =>
      rw [mergePath] at h
      have hentry := mem_leaves_mergeEntry (mem_leaves_union node) h
      rwa [Path.ofText_of_plain hplain.1] at hentry
    | cons next path =>
      rw [mergePath] at h
      · refine (mem_leaves_mergeEntry (mem_leaves_union _) h).imp_right ?_
        rintro ⟨rest, hrest, rfl⟩
        rw [leaves_group] at hrest
        rcases ih hplain.2 hrest with hnone | ⟨below, hbelow, rfl⟩
        · simp [leaves] at hnone
        · exact ⟨below, hbelow, by rw [Path.ofText_of_plain hplain.1]; rfl⟩
      · simp

theorem covers_mergePath {tree : Selection} {path covered : Path} {node : Node}
    (hplain : ∀ key ∈ path, Path.Plain key) (hpath : path ≠ [])
    (h : Covers tree covered ∨ ∃ rest, node.Covers rest ∧ covered = path ++ rest) :
    Covers (mergePath tree path node) covered := by
  induction path generalizing tree covered with
  | nil => exact absurd rfl hpath
  | cons key path ih =>
    rw [List.forall_mem_cons] at hplain
    have hkey := Path.ofText_of_plain hplain.1
    cases path with
    | nil =>
      rw [mergePath]
      exact covers_mergeEntry (covers_union node) (by rwa [hkey])
    | cons next path =>
      rw [mergePath]
      · refine covers_mergeEntry (covers_union _) (h.imp_right ?_)
        rintro ⟨rest, hrest, rfl⟩
        obtain ⟨leaf, hleaf, hbegin⟩ : Covers (mergePath [] (next :: path) node) (next :: path ++ rest) :=
          ih hplain.2 (by simp) (.inr ⟨rest, hrest, rfl⟩)
        exact ⟨next :: path ++ rest, ⟨leaf, by rwa [leaves_group], hbegin⟩, by rw [hkey]; rfl⟩
      · simp

/-! ### Writing dotted keys out -/

theorem mem_leaves_canonicalOnto_of {entries : Selection}
    (hnodes : ∀ entry ∈ entries, ∀ path ∈ entry.2.canonical.leaves, path ∈ entry.2.leaves)
    {done : Selection} {path : Path} (h : path ∈ leaves (canonicalOnto done entries)) :
    path ∈ leaves done ∨ path ∈ leaves entries := by
  induction entries generalizing done with
  | nil =>
    rw [canonicalOnto] at h
    exact .inl h
  | cons entry rest ih =>
    obtain ⟨key, node⟩ := entry
    rw [List.forall_mem_cons] at hnodes
    rw [canonicalOnto] at h
    rw [mem_leaves_cons]
    rcases ih hnodes.2 h with h | h
    · refine (mem_leaves_mergePath (fun _ => Path.plain_of_mem_ofText) h).imp_right fun h => .inl ?_
      obtain ⟨below, hbelow, rfl⟩ := h
      exact ⟨below, hnodes.1 below hbelow, rfl⟩
    · exact .inr (.inr h)

theorem mem_leaves_canonicalNode (node : Node) :
    ∀ path ∈ node.canonical.leaves, path ∈ node.leaves := by
  induction node using Node.ind with
  | marker n =>
    intro path h
    rwa [Node.canonical] at h
  | group entries ih =>
    intro path h
    rw [Node.canonical, leaves_group] at h
    rw [leaves_group]
    refine (mem_leaves_canonicalOnto_of ih h).resolve_left ?_
    simp [leaves]

/-- Writing dotted keys out adds no leaf. -/
theorem mem_leaves_canonical {tree : Selection} {path : Path} (h : path ∈ leaves tree.canonical) :
    path ∈ leaves tree := by
  refine (mem_leaves_canonicalOnto_of (fun entry _ => mem_leaves_canonicalNode entry.2) h).resolve_left ?_
  simp [leaves]

theorem covers_canonicalOnto_of {entries : Selection}
    (hnodes : ∀ entry ∈ entries, ∀ path, entry.2.Covers path → entry.2.canonical.Covers path)
    {done : Selection} {path : Path} (h : Covers done path ∨ Covers entries path) :
    Covers (canonicalOnto done entries) path := by
  induction entries generalizing done with
  | nil =>
    rw [canonicalOnto]
    rcases h with h | ⟨leaf, hleaf, _⟩
    · exact h
    · simp [leaves] at hleaf
  | cons entry rest ih =>
    obtain ⟨key, node⟩ := entry
    rw [List.forall_mem_cons] at hnodes
    rw [canonicalOnto]
    rw [covers_cons] at h
    have hmerge : ∀ {covered}, Covers done covered ∨ (∃ below, node.canonical.Covers below ∧
        covered = Path.ofText key ++ below) →
          Covers (mergePath done (Path.ofText key) node.canonical) covered :=
      covers_mergePath (fun _ => Path.plain_of_mem_ofText) (Path.ofText_ne_nil key)
    rcases h with h | ⟨below, hbelow, rfl⟩ | h
    · exact ih hnodes.2 (.inl (hmerge (.inl h)))
    · exact ih hnodes.2 (.inl (hmerge (.inr ⟨below, hnodes.1 below hbelow, rfl⟩)))
    · exact ih hnodes.2 (.inr h)

theorem covers_canonicalNode (node : Node) :
    ∀ path, node.Covers path → node.canonical.Covers path := by
  induction node using Node.ind with
  | marker n =>
    intro path h
    rwa [Node.canonical]
  | group entries ih =>
    intro path h
    have hentries : Covers entries path := by
      rwa [Node.Covers, leaves_group] at h
    rw [Node.canonical, Node.Covers, leaves_group]
    exact covers_canonicalOnto_of ih (.inr hentries)

/-- Writing dotted keys out uncovers nothing. -/
theorem covers_canonical {tree : Selection} {path : Path} (h : Covers tree path) :
    Covers tree.canonical path :=
  covers_canonicalOnto_of (fun entry _ => covers_canonicalNode entry.2) (.inr h)

end DocQuery.Selection
