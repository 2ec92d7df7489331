import DocQuery.Proofs.Selection.Covering

/-!
# The canonical form of a selection

Writing dotted keys out gives a normal form: no key is dotted any more, and there is nothing to write
out a second time (`canonical_of_nested`).  It is faithful, since it covers the same paths and
*mentions* the same ones: a path is mentioned that leads to a key or lies behind a marker, so this also
tells the groups apart in which there is nothing (`mentions_canonical`).  Without dotted keys and with
one marker throughout, what is covered and what is mentioned determine a selection but for the order of
its keys (`permuted_of_same`).  As both turn a union into "or" (`covers_merge_iff`, `mentions_merge`),
it does not matter whether dotted keys are written out before or after a union.
-/

namespace DocQuery.Selection

/-! ### The order of keys -/

mutual

/-- The same node with the keys of its groups in another order. -/
inductive Node.Permuted : Node → Node → Prop
  | marker (n : Int32) : Node.Permuted (.marker n) (.marker n)
  | group {entries others : List (String × Node)} (h : Permuted entries others) :
    Node.Permuted (.group entries) (.group others)

/-- The same selection with its keys in another order, at every level. -/
inductive Permuted : List (String × Node) → List (String × Node) → Prop
  | nil : Permuted [] []
  | cons (key : String) {node other : Node} {rest others : List (String × Node)}
    (hnode : Node.Permuted node other) (h : Permuted rest others) :
    Permuted ((key, node) :: rest) ((key, other) :: others)
  | perm {entries others more : List (String × Node)} (h : Permuted entries others)
    (hperm : others.Perm more) : Permuted entries more

end

/-- Selections with distinct keys are the same but for the order if they have the same keys and, at each
key, nodes that are the same but for the order. -/
theorem permuted_of_lookup {tree other : Selection} (htree : Keyed.Distinct tree)
    (hother : Keyed.Distinct other) (hkeys : ∀ key ∈ Keyed.keys other, key ∈ Keyed.keys tree)
    (hnodes : ∀ entry ∈ tree, ∃ node, other.lookup entry.1 = some node ∧ entry.2.Permuted node) :
    Permuted tree other := by
  induction tree generalizing other with
  | nil =>
    cases other with
    | nil => exact .nil
    | cons entry rest => exact absurd (hkeys entry.1 (by simp [Keyed.keys])) (by simp [Keyed.keys])
  | cons entry rest ih =>
    obtain ⟨key, node⟩ := entry
    obtain ⟨hkey, hrest⟩ := List.nodup_cons.1 htree
    obtain ⟨⟨found, hfound, hnode⟩, hnodes⟩ := List.forall_mem_cons.1 hnodes
    obtain ⟨before, after, hbefore, rfl⟩ := Keyed.exists_split_of_lookup hfound
    -- the pair of the key is brought to the front
    have hmiddle : ((key, found) :: (before ++ after)).Perm (before ++ (key, found) :: after) :=
      List.perm_middle.symm
    have hdistinct : Keyed.Distinct ((key, found) :: (before ++ after)) :=
      (hmiddle.map Prod.fst).nodup_iff.2 hother
    have hkeyless := (List.nodup_cons.1 hdistinct).1
    refine .perm (.cons key hnode (ih hrest (List.nodup_cons.1 hdistinct).2 ?_ ?_)) hmiddle
    · intro name hname
      have hne : name ≠ key := by
        rintro rfl
        exact hkeyless hname
      have hmem : name ∈ Keyed.keys (before ++ (key, found) :: after) :=
        (hmiddle.map Prod.fst).mem_iff.1 (List.mem_cons_of_mem _ hname)
      exact (List.mem_cons.1 (hkeys name hmem)).resolve_left hne
    · intro entry hentry
      obtain ⟨node, hlookup, hnode⟩ := hnodes entry hentry
      refine ⟨node, ?_, hnode⟩
      have hne : entry.1 ≠ key := fun e => hkey (List.mem_map.2 ⟨entry, hentry, e⟩)
      have hbeq : (entry.1 == key) = false := by simpa using hne
      rw [← Keyed.lookup_of_perm hmiddle hdistinct, List.lookup_cons, hbeq] at hlookup
      exact hlookup

/-! ### Paths that are mentioned -/

mutual

/-- A path behind a marker, or one that leads to a key in the groups. -/
def Node.Mentions : Node → Path → Prop
  | .marker _, _ => True
  | .group entries, path => path = [] ∨ Mentions entries path

/-- A path behind a marker of a selection, or one that leads to a key, where a dotted key counts as its
keys. -/
def Mentions : List (String × Node) → Path → Prop
  | [], _ => False
  | (key, node) :: rest, path =>
    (path <+: Path.ofText key ∨ ∃ below, node.Mentions below ∧ path = Path.ofText key ++ below) ∨
      Mentions rest path

end

theorem Node.mentions_nil (node : Node) : node.Mentions [] := by
  cases node <;> simp [Node.Mentions]

/-- The paths that a node mentions from the end of a path on, and those on the way. -/
def Node.MentionsBehind (node : Node) (front path : Path) : Prop :=
  path <+: front ∨ ∃ below, node.Mentions below ∧ path = front ++ below

theorem mentions_iff {tree : Selection} {path : Path} :
    Mentions tree path ↔ ∃ entry ∈ tree, entry.2.MentionsBehind (Path.ofText entry.1) path := by
  induction tree with
  | nil => simp [Mentions]
  | cons entry rest ih =>
    rw [Mentions, ih, List.exists_mem_cons_iff]
    rfl

/-- One more entry brings what it has, if a union of nodes has what both nodes have. -/
theorem exists_mem_mergeEntry_iff {P : String × Node → Prop} {tree : Selection} {key : String}
    {node : Node}
    (hunion : ∀ existing : Node, P (key, existing.union node) ↔ P (key, existing) ∨ P (key, node)) :
    (∃ entry ∈ mergeEntry tree key node, P entry) ↔ (∃ entry ∈ tree, P entry) ∨ P (key, node) := by
  rw [mergeEntry_eq]
  induction tree with
  | nil => simp [Keyed.adjust, unionWith]
  | cons entry rest ih =>
    obtain ⟨name, existing⟩ := entry
    rw [Keyed.adjust]
    split
    · next hname =>
      subst hname
      rw [List.exists_mem_cons_iff, List.exists_mem_cons_iff, unionWith, hunion]
      exact or_right_comm
    · rw [List.exists_mem_cons_iff, List.exists_mem_cons_iff, ih, or_assoc]

theorem mentionsBehind_union_of {existing node : Node} {front path : Path}
    (h : ∀ path, (existing.union node).Mentions path ↔ existing.Mentions path ∨ node.Mentions path) :
    (existing.union node).MentionsBehind front path ↔
      existing.MentionsBehind front path ∨ node.MentionsBehind front path := by
  simp only [Node.MentionsBehind, h, or_and_right, exists_or]
  exact or_or_distrib_left

theorem mentions_mergeEntry_of {tree : Selection} {key : String} {node : Node} {path : Path}
    (hunion : ∀ (existing : Node) (path : Path),
      (existing.union node).Mentions path ↔ existing.Mentions path ∨ node.Mentions path) :
    Mentions (mergeEntry tree key node) path ↔
      Mentions tree path ∨ node.MentionsBehind (Path.ofText key) path := by
  rw [mentions_iff, mentions_iff]
  exact exists_mem_mergeEntry_iff
    (P := fun entry => entry.2.MentionsBehind (Path.ofText entry.1) path)
    fun existing => mentionsBehind_union_of (hunion existing)

theorem mentions_merge_of {entries : Selection}
    (hunion : ∀ entry ∈ entries, ∀ (existing : Node) (path : Path),
      (existing.union entry.2).Mentions path ↔ existing.Mentions path ∨ entry.2.Mentions path)
    {tree : Selection} {path : Path} :
    Mentions (merge tree entries) path ↔ Mentions tree path ∨ Mentions entries path := by
  induction entries generalizing tree with
  | nil => simp [merge, Mentions]
  | cons entry rest ih =>
    obtain ⟨key, node⟩ := entry
    rw [List.forall_mem_cons] at hunion
    rw [merge_cons, ih hunion.2, mentions_mergeEntry_of hunion.1, or_assoc]
    rfl

/-- A union mentions what its parts mention. -/
theorem mentions_union (node : Node) : ∀ (existing : Node) (path : Path),
    (existing.union node).Mentions path ↔ existing.Mentions path ∨ node.Mentions path := by
  induction node using Node.ind with
  | marker n =>
    intro existing path
    cases existing <;> simp [Node.union, Node.Mentions]
  | group entries ih =>
    intro existing path
    cases existing with
    | marker n => simp [Node.union, Node.Mentions]
    | group tree =>
      rw [Node.union, Node.Mentions, Node.Mentions, Node.Mentions, mentions_merge_of ih]
      tauto

theorem mentions_merge {tree entries : Selection} {path : Path} :
    Mentions (merge tree entries) path ↔ Mentions tree path ∨ Mentions entries path :=
  mentions_merge_of fun entry _ => mentions_union entry.2

theorem mentions_mergeEntry {tree : Selection} {key : String} {node : Node} {path : Path} :
    Mentions (mergeEntry tree key node) path ↔
      Mentions tree path ∨ node.MentionsBehind (Path.ofText key) path :=
  mentions_mergeEntry_of (mentions_union node)

/-! ### Writing dotted keys out -/

/-- Below a key, a group that holds nothing but a node at a path mentions the paths behind the key. -/
theorem mentionsBehind_group {entries : Selection} {key : String} {front path : Path} {node : Node}
    (h : ∀ path, Mentions entries path ↔ node.MentionsBehind front path) :
    (Node.group entries).MentionsBehind [key] path ↔ node.MentionsBehind (key :: front) path := by
  cases path with
  | nil => simp [Node.MentionsBehind]
  | cons first rest =>
    have hnil : rest = [] → node.MentionsBehind front rest := fun e => .inl (e ▸ List.nil_prefix)
    have hrest : (Node.group entries).Mentions rest ↔ node.MentionsBehind front rest := by
      rw [Node.Mentions, h]
      exact or_iff_right_of_imp hnil
    by_cases hkey : first = key
    · subst hkey
      simp only [Node.MentionsBehind, List.cons_prefix_cons, List.cons_append, List.nil_append,
        List.cons.injEq, true_and, exists_eq_right', hrest, List.prefix_nil]
      exact or_iff_right_of_imp hnil
    · simp [Node.MentionsBehind, List.cons_prefix_cons, hkey]

theorem mentions_mergePath {tree : Selection} {front path : Path} {node : Node}
    (hplain : ∀ key ∈ front, Path.Plain key) (hfront : front ≠ []) :
    Mentions (mergePath tree front node) path ↔
      Mentions tree path ∨ node.MentionsBehind front path := by
  induction front generalizing tree path with
  | nil => exact absurd rfl hfront
  | cons key front ih =>
    rw [List.forall_mem_cons] at hplain
    cases front with
    | nil => rw [mergePath, mentions_mergeEntry, Path.ofText_of_plain hplain.1]
    | cons next front =>
      have hbelow : ∀ path, Mentions (mergePath [] (next :: front) node) path ↔
          node.MentionsBehind (next :: front) path := by
        intro path
        rw [ih hplain.2 (by simp), Mentions, false_or]
      rw [mergePath]
      · rw [mentions_mergeEntry, Path.ofText_of_plain hplain.1, mentionsBehind_group hbelow]
      · simp

theorem mentions_canonicalOnto_of {entries : Selection}
    (hnodes : ∀ entry ∈ entries, ∀ path, entry.2.canonical.Mentions path ↔ entry.2.Mentions path)
    {done : Selection} {path : Path} :
    Mentions (canonicalOnto done entries) path ↔ Mentions done path ∨ Mentions entries path := by
  induction entries generalizing done with
  | nil => simp [canonicalOnto, Mentions]
  | cons entry rest ih =>
    obtain ⟨key, node⟩ := entry
    rw [List.forall_mem_cons] at hnodes
    have hplain : ∀ part ∈ Path.ofText key, Path.Plain part := fun _ => Path.plain_of_mem_ofText
    rw [canonicalOnto, ih hnodes.2, mentions_mergePath hplain (Path.ofText_ne_nil key), Mentions,
      or_assoc, Node.MentionsBehind]
    simp only [hnodes.1]

theorem mentions_canonicalNode (node : Node) :
    ∀ path, node.canonical.Mentions path ↔ node.Mentions path := by
  induction node using Node.ind with
  | marker n => exact fun path => by rw [Node.canonical]
  | group entries ih =>
    intro path
    rw [Node.canonical, Node.Mentions, Node.Mentions, mentions_canonicalOnto_of ih, Mentions, false_or]

/-- Written out, a selection mentions the same paths. -/
theorem mentions_canonical {tree : Selection} {path : Path} :
    Mentions tree.canonical path ↔ Mentions tree path := by
  rw [canonical, mentions_canonicalOnto_of fun entry _ => mentions_canonicalNode entry.2, Mentions,
    false_or]

/-! ### Nothing to write out -/

theorem canonicalOnto_of_nested {done entries : Selection}
    (hnodes : ∀ entry ∈ entries, entry.2.Has nested → entry.2.canonical = entry.2)
    (hdistinct : Keyed.Distinct (done ++ entries)) (h : Fits nested entries) :
    canonicalOnto done entries = done ++ entries := by
  induction entries generalizing done with
  | nil => rw [canonicalOnto, List.append_nil]
  | cons entry rest ih =>
    obtain ⟨key, node⟩ := entry
    obtain ⟨⟨hkey, hnode⟩, hrest⟩ := List.forall_mem_cons.1 h
    rw [List.forall_mem_cons] at hnodes
    have hsplit : done ++ (key, node) :: rest = done ++ [(key, node)] ++ rest := by simp
    rw [canonicalOnto, hnodes.1 hnode, Path.ofText_of_plain hkey, mergePath,
      mergeEntry_of_notMem hdistinct.notMem_front, hsplit]
    exact ih hnodes.2 (hsplit ▸ hdistinct) hrest

theorem canonical_of_has_nested (node : Node) : node.Has nested → node.canonical = node := by
  induction node using Node.ind with
  | marker n => exact fun _ => by rw [Node.canonical]
  | group entries ih =>
    intro h
    obtain ⟨hdistinct, hfits⟩ := has_group_iff.1 h
    have hgroup : Keyed.Distinct ([] ++ entries) := hdistinct
    rw [Node.canonical, canonicalOnto_of_nested ih hgroup hfits, List.nil_append]

/-- Where no key is dotted and none stands twice, there is nothing to write out. -/
theorem canonical_of_nested {tree : Selection} (h : Nested tree) : tree.canonical = tree := by
  have hdistinct : Keyed.Distinct ([] ++ tree) := h.1
  rw [canonical, canonicalOnto_of_nested (fun entry _ => canonical_of_has_nested entry.2) hdistinct h.2,
    List.nil_append]

/-! ### What determines a selection -/

/-- The shape of a selection in which every marker is `m`. -/
def uniform (m : Int32) : Shape := ⟨fun _ => True, fun _ => True, fun n => n = m⟩

theorem kept_uniform (m : Int32) : (uniform m).Kept where
  adjust _ _ _ _ := trivial
  single _ _ := trivial

theorem uniform_canonical {m : Int32} {tree : Selection} (h : Fits (uniform m) tree) :
    Fits (uniform m) tree.canonical :=
  fits_canonicalOnto_of (kept_uniform m) (fun _ _ _ _ => trivial)
    (fun entry _ => has_canonicalNode (kept_uniform m) (fun _ _ _ _ => trivial)
      (fun _ _ => .inl trivial) (fun _ h => h) entry.2) (fits_nil _) h

theorem nested_merge {tree other : Selection} (h : Nested tree) (hother : Nested other) :
    Nested (tree.merge other) :=
  ⟨group_merge kept_nested other h.1, fits_merge kept_nested h.2 hother.2⟩

/-- What a selection without dotted keys mentions behind a key is what its node there mentions. -/
theorem mentions_key_iff {tree : Selection} (htree : Nested tree) {key : String} {rest : Path} :
    Mentions tree (key :: rest) ↔ ∃ node, tree.lookup key = some node ∧ node.Mentions rest := by
  rw [mentions_iff]
  constructor
  · rintro ⟨⟨name, node⟩, hentry, hbehind⟩
    have hlookup := Keyed.lookup_of_mem htree.1 hentry
    rw [Path.ofText_of_plain (htree.2 _ hentry).1, Node.MentionsBehind] at hbehind
    rcases hbehind with hbegin | ⟨below, hbelow, hpath⟩
    · obtain ⟨rfl, hrest⟩ := List.cons_prefix_cons.1 hbegin
      obtain rfl := List.prefix_nil.1 hrest
      exact ⟨node, hlookup, node.mentions_nil⟩
    · obtain ⟨rfl, rfl⟩ := List.cons.inj hpath
      exact ⟨node, hlookup, hbelow⟩
  · rintro ⟨node, hlookup, hrest⟩
    have hmem := Keyed.mem_of_lookup hlookup
    refine ⟨_, hmem, .inr ⟨rest, hrest, ?_⟩⟩
    rw [Path.ofText_of_plain (htree.2 _ hmem).1]
    rfl

theorem permuted_of_same_of {m : Int32} {tree other : Selection} (htree : Nested tree)
    (hother : Nested other) (hmarkers : Fits (uniform m) tree) (hmarkers' : Fits (uniform m) other)
    (hnodes : ∀ entry ∈ tree, ∀ node : Node, entry.2.Has nested → node.Has nested →
      entry.2.Has (uniform m) → node.Has (uniform m) →
      (∀ path, entry.2.Covers path ↔ node.Covers path) →
      (∀ path, entry.2.Mentions path ↔ node.Mentions path) → entry.2.Permuted node)
    (hcovers : ∀ path, Covers tree path ↔ Covers other path)
    (hmentions : ∀ key rest, Mentions tree (key :: rest) ↔ Mentions other (key :: rest)) :
    Permuted tree other := by
  -- a key is there if the path of it alone is mentioned
  have hlookup : ∀ {tree : Selection}, Nested tree → ∀ {key : String},
      Mentions tree [key] ↔ ∃ node, tree.lookup key = some node := by
    intro tree htree key
    simp only [mentions_key_iff htree, Node.mentions_nil, and_true]
  refine permuted_of_lookup htree.1 hother.1 ?_ ?_
  · intro key hkey
    rw [← Keyed.contains_iff_mem_keys, Option.isSome_iff_exists] at hkey ⊢
    exact (hlookup htree).1 ((hmentions key []).2 ((hlookup hother).2 hkey))
  · intro entry hentry
    have hleft := Keyed.lookup_of_mem htree.1 hentry
    obtain ⟨node, hright⟩ :=
      (hlookup hother).1 ((hmentions entry.1 []).1 ((hlookup htree).2 ⟨_, hleft⟩))
    have hmem := Keyed.mem_of_lookup hright
    refine ⟨node, hright, hnodes entry hentry node (htree.2 _ hentry).2 (hother.2 _ hmem).2
      (hmarkers _ hentry).2 (hmarkers' _ hmem).2 (fun path => ?_) fun path => ?_⟩
    · have h := hcovers (entry.1 :: path)
      simpa [covers_key_iff htree, covers_key_iff hother, hleft, hright] using h
    · have h := hmentions entry.1 path
      simpa [mentions_key_iff htree, mentions_key_iff hother, hleft, hright] using h

theorem node_permuted_of_same {m : Int32} (node : Node) : ∀ other : Node, node.Has nested →
    other.Has nested → node.Has (uniform m) → other.Has (uniform m) →
    (∀ path, node.Covers path ↔ other.Covers path) →
    (∀ path, node.Mentions path ↔ other.Mentions path) → node.Permuted other := by
  -- at its end a path is covered by a marker only
  have hgroup : ∀ entries : Selection, ¬(Node.group entries).Covers [] := fun entries h =>
    (node_covers_group_iff.1 h).ne_nil rfl
  induction node using Node.ind with
  | marker n =>
    intro other _ _ hmarker hmarker' hcovers _
    cases other with
    | marker n' =>
      obtain rfl : n = m := has_marker_iff.1 hmarker
      obtain rfl : n' = n := has_marker_iff.1 hmarker'
      exact .marker n'
    | group entries => exact absurd ((hcovers []).1 (covers_marker n [])) (hgroup entries)
  | group entries ih =>
    intro other hnested hnested' hmarkers hmarkers' hcovers hmentions
    cases other with
    | marker n => exact absurd ((hcovers []).2 (covers_marker n [])) (hgroup entries)
    | group others =>
      refine .group (permuted_of_same_of (has_group_iff.1 hnested) (has_group_iff.1 hnested')
        (has_group_iff.1 hmarkers).2 (has_group_iff.1 hmarkers').2 ih (fun path => ?_) fun key rest => ?_)
      · simpa only [node_covers_group_iff] using hcovers path
      · simpa [Node.Mentions] using hmentions (key :: rest)

/-- Without dotted keys and with one marker throughout, selections that cover and mention the same paths
are the same but for the order of their keys. -/
theorem permuted_of_same {m : Int32} {tree other : Selection} (htree : Nested tree)
    (hother : Nested other) (hmarkers : Fits (uniform m) tree) (hmarkers' : Fits (uniform m) other)
    (hcovers : ∀ path, Covers tree path ↔ Covers other path)
    (hmentions : ∀ path, Mentions tree path ↔ Mentions other path) : Permuted tree other :=
  permuted_of_same_of htree hother hmarkers hmarkers' (fun entry _ => node_permuted_of_same entry.2)
    hcovers fun key rest => hmentions (key :: rest)

/-! ### Before or after a union -/

/-- Written out, a union is the union of both sides written out, but for the order of the keys. -/
theorem permuted_canonical_merge {m : Int32} {tree other : Selection} (htree : Fits (uniform m) tree)
    (hother : Fits (uniform m) other) :
    Permuted (tree.merge other).canonical (tree.canonical.merge other.canonical) := by
  have hkept := kept_uniform m
  have hunion : Fits (uniform m) (tree.merge other) := fits_merge hkept htree hother
  have hparts : Fits (uniform m) (tree.canonical.merge other.canonical) :=
    fits_merge hkept (uniform_canonical htree) (uniform_canonical hother)
  refine permuted_of_same (nested_canonical _)
    (nested_merge (nested_canonical tree) (nested_canonical other)) (uniform_canonical hunion) hparts
    (fun path => ?_) fun path => ?_
  · rw [covers_canonical_iff, covers_merge_iff, covers_merge_iff, covers_canonical_iff,
      covers_canonical_iff]
  · rw [mentions_canonical, mentions_merge, mentions_merge, mentions_canonical, mentions_canonical]

/-- **The canonical form is a faithful normal form.**  It has no dotted key at any level, and none twice;
to write it out again changes nothing; and it covers the paths that the selection covers.  With one
marker throughout, the union of canonical forms is the canonical form of the union, but for the order of
the keys. -/
theorem canonical_normal_form (tree : Selection) :
    Nested tree.canonical ∧
      tree.canonical.canonical = tree.canonical ∧
      (∀ path, Covers tree.canonical path ↔ Covers tree path) ∧
      ∀ (m : Int32) (other : Selection), Fits (uniform m) tree → Fits (uniform m) other →
        Permuted (tree.merge other).canonical (tree.canonical.merge other.canonical) :=
  ⟨nested_canonical tree, canonical_of_nested (nested_canonical tree), fun _ => covers_canonical_iff,
    fun _ _ => permuted_canonical_merge⟩

/-! ### A friend asked for in two places -/

namespace FriendInTwoPlaces

/-- `friend { name } friend.password` -/
def tree : Selection :=
  [("friend", .group [("name", .marker included)]), ("friend.password", .marker included)]

/-- `friend { email home.city }` -/
def other : Selection :=
  [("friend", .group [("email", .marker included), ("home.city", .marker included)])]

theorem uniform_tree : Fits (uniform included) tree := by
  simp [tree, Fits, has_group_iff, has_marker_iff, uniform]

theorem uniform_other : Fits (uniform included) other := by
  simp [other, Fits, has_group_iff, has_marker_iff, uniform]

/-- Written out after the union, the email comes before the password, and else behind it. -/
theorem email_before_or_behind_password :
    Fits (uniform included) tree ∧ Fits (uniform included) other ∧
      leaves (tree.merge other).canonical =
        [["friend", "name"], ["friend", "email"], ["friend", "home", "city"], ["friend", "password"]] ∧
      leaves (tree.canonical.merge other.canonical) =
        [["friend", "name"], ["friend", "password"], ["friend", "email"], ["friend", "home", "city"]] ∧
      Permuted (tree.merge other).canonical (tree.canonical.merge other.canonical) :=
  ⟨uniform_tree, uniform_other, by decide +kernel, by decide +kernel,
    (canonical_normal_form tree).2.2.2 included other uniform_tree uniform_other⟩

end FriendInTwoPlaces

end DocQuery.Selection
