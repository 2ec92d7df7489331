import DocQuery.Proofs.Selection.Without

/-!
# What is left, leaf by leaf

A selection is *thinned* by a property of paths: only the leaves with the property stay, and a group in
which none is left goes.  Taking fields away thins a selection to the leaves that are apart from all
that is taken away (`without_eq_thin`).  So what is left is read off the list of leaves, and to take
fields away one after the other is to take their union away (`without_without`).
-/

namespace DocQuery.Selection

/-! ### Leaves with their markers -/

mutual

/-- The paths of the markers in a node with the markers there, from the node on. -/
def Node.marks : Node → List (Path × Int32)
  | .marker n => [([], n)]
  | .group entries => marks entries

/-- The paths of the markers in a selection, in their order, with the markers there. -/
def marks : List (String × Node) → List (Path × Int32)
  | [] => []
  | (key, node) :: rest => node.marks.map (Prod.map (Path.ofText key ++ ·) id) ++ marks rest

end

theorem leaves_eq_marks_of {entries : Selection}
    (hnodes : ∀ entry ∈ entries, entry.2.leaves = entry.2.marks.map Prod.fst) :
    leaves entries = (marks entries).map Prod.fst := by
  induction entries with
  | nil => rfl
  | cons entry rest ih =>
    obtain ⟨key, node⟩ := entry
    rw [List.forall_mem_cons] at hnodes
    rw [leaves, marks, List.map_append, ih hnodes.2, hnodes.1, List.map_map, List.map_map]
    rfl

theorem node_leaves_eq_marks (node : Node) : node.leaves = node.marks.map Prod.fst := by
  induction node using Node.ind with
  | marker n => rfl
  | group entries ih => exact leaves_eq_marks_of ih

theorem leaves_eq_marks (tree : Selection) : leaves tree = (marks tree).map Prod.fst :=
  leaves_eq_marks_of fun entry _ => node_leaves_eq_marks entry.2

/-! ### Thinning -/

mutual

/-- What is left of a node if only the markers at some paths stay. -/
def Node.thin (p : Path → Bool) : Node → Option Node
  | .marker n => if p [] then some (.marker n) else none
  | .group entries =>
    match thin p entries with
    | [] => none
    | rest => some (.group rest)

/-- A selection with only the markers at some paths; a group in which none is left goes too. -/
def thin (p : Path → Bool) : List (String × Node) → Selection
  | [] => []
  | (key, node) :: rest =>
    match node.thin fun below => p (Path.ofText key ++ below) with
    | some kept => (key, kept) :: thin p rest
    | none => thin p rest

end

/-- A group, unless there is nothing in it. -/
def groupOf? : List (String × Node) → Option Node
  | [] => none
  | entry :: rest => some (.group (entry :: rest))

theorem thin_group (p : Path → Bool) (entries : Selection) :
    (Node.group entries).thin p = groupOf? (thin p entries) := by
  rw [Node.thin]
  cases thin p entries <;> rfl

theorem pruned_inside (entries removal : Selection) :
    (Node.group entries).pruned (.inside removal) =
      groupOf? (prunedEntries (canonical removal) entries) := by
  rw [Node.pruned]
  cases prunedEntries (canonical removal) entries <;> rfl

theorem groupOf?_bind_thin (p : Path → Bool) (entries : Selection) :
    (groupOf? entries).bind (Node.thin p) = groupOf? (thin p entries) := by
  cases entries with
  | nil => simp [groupOf?, thin]
  | cons entry rest => rw [groupOf?, Option.bind_some, thin_group]

theorem groupOf?_map_marks (entries : Selection) :
    ((groupOf? entries).map Node.marks).getD [] = marks entries := by
  cases entries <;> simp [groupOf?, Node.marks, marks]

/-- What is left of an entry. -/
def thinEntry (p : Path → Bool) (entry : String × Node) : Option (String × Node) :=
  (entry.2.thin fun below => p (Path.ofText entry.1 ++ below)).map (entry.1, ·)

theorem thin_eq_filterMap (p : Path → Bool) (entries : Selection) :
    thin p entries = entries.filterMap (thinEntry p) := by
  induction entries with
  | nil => rw [thin, List.filterMap_nil]
  | cons entry rest ih =>
    obtain ⟨key, node⟩ := entry
    rw [thin, List.filterMap_cons, thinEntry, ih]
    cases node.thin fun below => p (Path.ofText key ++ below) <;> rfl

theorem prunedEntries_eq_filterMap (removal entries : Selection) :
    prunedEntries removal entries = entries.filterMap fun entry =>
      (entry.2.pruned (reach removal (Path.ofText entry.1))).map (entry.1, ·) := by
  induction entries with
  | nil => rw [prunedEntries, List.filterMap_nil]
  | cons entry rest ih =>
    obtain ⟨key, node⟩ := entry
    rw [prunedEntries, List.filterMap_cons, ih]
    cases node.pruned (reach removal (Path.ofText key)) <;> rfl

theorem thin_congr_of {p q : Path → Bool} {entries : Selection}
    (hnodes : ∀ entry ∈ entries, ∀ {p q : Path → Bool},
      (∀ leaf ∈ entry.2.leaves, p leaf = q leaf) → entry.2.thin p = entry.2.thin q)
    (h : ∀ leaf ∈ leaves entries, p leaf = q leaf) : thin p entries = thin q entries := by
  rw [thin_eq_filterMap, thin_eq_filterMap]
  refine List.filterMap_congr fun entry hentry => ?_
  refine congrArg (Option.map _) (hnodes entry hentry fun below hbelow => h _ ?_)
  exact mem_leaves_iff.2 ⟨entry, hentry, below, hbelow, rfl⟩

theorem thin_congr_node (node : Node) : ∀ {p q : Path → Bool},
    (∀ leaf ∈ node.leaves, p leaf = q leaf) → node.thin p = node.thin q := by
  induction node using Node.ind with
  | marker n =>
    intro p q h
    have hself : p [] = q [] := h [] (by simp [Node.leaves])
    rw [Node.thin, Node.thin, hself]
  | group entries ih =>
    intro p q h
    rw [leaves_group] at h
    rw [thin_group, thin_group, thin_congr_of ih h]

/-- Thinning depends on the leaves only. -/
theorem thin_congr {p q : Path → Bool} {tree : Selection} (h : ∀ leaf ∈ leaves tree, p leaf = q leaf) :
    thin p tree = thin q tree :=
  thin_congr_of (fun entry _ => thin_congr_node entry.2) h

theorem thin_true_of {entries : Selection}
    (hnodes : ∀ entry ∈ entries, entry.2.thin (fun _ => true) = some entry.2) :
    thin (fun _ => true) entries = entries := by
  rw [thin_eq_filterMap]
  refine (List.filterMap_congr fun entry hentry => ?_).trans List.filterMap_some
  rw [thinEntry, hnodes entry hentry]
  rfl

theorem thin_true_node (node : Node) : node.Has full → node.thin (fun _ => true) = some node := by
  induction node using Node.ind with
  | marker n => exact fun _ => by simp [Node.thin]
  | group entries ih =>
    intro h
    obtain ⟨hne, hfits⟩ := has_group_iff.1 h
    rw [thin_group, thin_true_of fun entry hentry => ih entry hentry (hfits entry hentry).2]
    obtain ⟨entry, rest, rfl⟩ := List.exists_cons_of_ne_nil hne
    rfl

/-- Where no group is empty, nothing goes if all leaves stay. -/
theorem thin_true {tree : Selection} (h : Fits full tree) : thin (fun _ => true) tree = tree :=
  thin_true_of fun entry hentry => thin_true_node entry.2 (h entry hentry).2

theorem thin_false_of {entries : Selection}
    (hnodes : ∀ entry ∈ entries, entry.2.thin (fun _ => false) = none) :
    thin (fun _ => false) entries = [] := by
  rw [thin_eq_filterMap, List.filterMap_eq_nil_iff]
  intro entry hentry
  rw [thinEntry, hnodes entry hentry]
  rfl

theorem thin_false_node (node : Node) : node.thin (fun _ => false) = none := by
  induction node using Node.ind with
  | marker n => simp [Node.thin]
  | group entries ih =>
    rw [thin_group, thin_false_of ih]
    rfl

theorem thin_false (tree : Selection) : thin (fun _ => false) tree = [] :=
  thin_false_of fun entry _ => thin_false_node entry.2

theorem thin_thin_of {p q : Path → Bool} {entries : Selection}
    (hnodes : ∀ entry ∈ entries, ∀ p q : Path → Bool,
      (entry.2.thin p).bind (Node.thin q) = entry.2.thin fun path => p path && q path) :
    thin q (thin p entries) = thin (fun path => p path && q path) entries := by
  rw [thin_eq_filterMap, thin_eq_filterMap, thin_eq_filterMap, List.filterMap_filterMap]
  refine List.filterMap_congr fun entry hentry => ?_
  rw [thinEntry, thinEntry, Option.bind_map, ← hnodes entry hentry, Option.map_bind]
  rfl

theorem thin_thin_node (node : Node) : ∀ p q : Path → Bool,
    (node.thin p).bind (Node.thin q) = node.thin fun path => p path && q path := by
  induction node using Node.ind with
  | marker n =>
    intro p q
    rw [Node.thin, Node.thin]
    cases p [] <;> simp [Node.thin]
  | group entries ih =>
    intro p q
    rw [thin_group, thin_group, groupOf?_bind_thin, thin_thin_of ih]

/-- To thin twice is to keep the leaves that both keep. -/
theorem thin_thin (p q : Path → Bool) (tree : Selection) :
    thin q (thin p tree) = thin (fun path => p path && q path) tree :=
  thin_thin_of fun entry _ => thin_thin_node entry.2

theorem marks_thin_of {p : Path → Bool} {entries : Selection}
    (hnodes : ∀ entry ∈ entries, ∀ p : Path → Bool,
      ((entry.2.thin p).map Node.marks).getD [] = entry.2.marks.filter fun mark => p mark.1) :
    marks (thin p entries) = (marks entries).filter fun mark => p mark.1 := by
  induction entries with
  | nil => simp [thin, marks]
  | cons entry rest ih =>
    obtain ⟨key, node⟩ := entry
    rw [List.forall_mem_cons] at hnodes
    have hnode := hnodes.1 fun below => p (Path.ofText key ++ below)
    have hfilter : (node.marks.map (Prod.map (Path.ofText key ++ ·) id)).filter (fun mark => p mark.1) =
        (node.marks.filter fun mark => p (Path.ofText key ++ mark.1)).map
          (Prod.map (Path.ofText key ++ ·) id) := List.filter_map
    rw [marks, List.filter_append, hfilter, ← hnode, ← ih hnodes.2, thin]
    cases node.thin fun below => p (Path.ofText key ++ below) <;> rfl

theorem marks_thin_node (node : Node) : ∀ p : Path → Bool,
    ((node.thin p).map Node.marks).getD [] = node.marks.filter fun mark => p mark.1 := by
  induction node using Node.ind with
  | marker n =>
    intro p
    rw [Node.thin, Node.marks]
    cases h : p [] <;> simp [h, Node.marks]
  | group entries ih =>
    intro p
    rw [thin_group, groupOf?_map_marks, Node.marks, marks_thin_of ih]

/-- The leaves of a thinned selection are the ones that stay, in their order and with their markers. -/
theorem marks_thin (p : Path → Bool) (tree : Selection) :
    marks (thin p tree) = (marks tree).filter fun mark => p mark.1 :=
  marks_thin_of fun entry _ => marks_thin_node entry.2

/-! ### What is spelled in the same way -/

mutual

/-- A node is another one of which some entries were left out, at any depth. -/
inductive Node.Within : Node → Node → Prop
  | marker (n : Int32) : Node.Within (.marker n) (.marker n)
  | group {part whole : List (String × Node)} (h : Within part whole) :
    Node.Within (.group part) (.group whole)

/-- A selection is another one of which some entries were left out, at any depth: what is there has
the same keys in the same order. -/
inductive Within : List (String × Node) → List (String × Node) → Prop
  | nil : Within [] []
  | drop {part whole : List (String × Node)} (entry : String × Node) (h : Within part whole) :
    Within part (entry :: whole)
  | keep {part whole : List (String × Node)} {left node : Node} (key : String)
    (hnode : Node.Within left node) (h : Within part whole) :
    Within ((key, left) :: part) ((key, node) :: whole)

end

theorem within_thin_of {p : Path → Bool} {entries : Selection}
    (hnodes : ∀ entry ∈ entries, ∀ (p : Path → Bool) (kept : Node),
      entry.2.thin p = some kept → kept.Within entry.2) : Within (thin p entries) entries := by
  induction entries with
  | nil =>
    rw [thin]
    exact .nil
  | cons entry rest ih =>
    obtain ⟨key, node⟩ := entry
    rw [List.forall_mem_cons] at hnodes
    rw [thin]
    split
    · next kept hkept => exact .keep key (hnodes.1 _ kept hkept) (ih hnodes.2)
    · exact .drop _ (ih hnodes.2)

theorem within_thin_node (node : Node) : ∀ (p : Path → Bool) (kept : Node),
    node.thin p = some kept → kept.Within node := by
  induction node using Node.ind with
  | marker n =>
    intro p kept h
    rw [Node.thin, Option.ite_none_right_eq_some] at h
    obtain rfl := Option.some.inj h.2
    exact .marker n
  | group entries ih =>
    intro p kept h
    have hwithin : Within (thin p entries) entries := within_thin_of ih
    rw [thin_group] at h
    cases hthin : thin p entries with
    | nil =>
      rw [hthin] at h
      cases h
    | cons entry rest =>
      rw [hthin] at h hwithin
      obtain rfl := Option.some.inj h
      exact .group hwithin

/-- A thinned selection is spelled like the selection. -/
theorem within_thin (p : Path → Bool) (tree : Selection) : Within (thin p tree) tree :=
  within_thin_of fun entry _ => within_thin_node entry.2

/-! ### Taking fields away -/

/-- A path that is apart from all that a selection names. -/
def ApartFrom (removal : Selection) (path : Path) : Prop :=
  ∀ taken ∈ leaves removal, Path.Apart path taken

instance : DecidableRel Path.Apart :=
  fun p q => inferInstanceAs (Decidable (¬ p <+: q ∧ ¬ q <+: p))

instance (removal : Selection) : DecidablePred (ApartFrom removal) :=
  fun path => inferInstanceAs (Decidable (∀ taken ∈ leaves removal, Path.Apart path taken))

/-- Writing dotted keys out changes nothing about the paths that are apart. -/
theorem apartFrom_canonical_iff {removal : Selection} {path : Path} :
    ApartFrom removal.canonical path ↔ ApartFrom removal path :=
  ⟨fun h _ htaken => (covers_canonical (covers_of_mem htaken)).apart h,
    fun h taken htaken => h taken (mem_leaves_canonical htaken)⟩

/-- What is apart from a union is apart from both of its parts. -/
theorem apartFrom_merge_iff {removal other : Selection} {path : Path} :
    ApartFrom (removal.merge other) path ↔ ApartFrom removal path ∧ ApartFrom other path := by
  constructor
  · intro h
    have hcovered : ∀ taken, Covers removal taken ∨ Covers other taken → Path.Apart path taken :=
      fun taken htaken => (covers_merge htaken).apart h
    exact ⟨fun taken htaken => hcovered taken (.inl (covers_of_mem htaken)),
      fun taken htaken => hcovered taken (.inr (covers_of_mem htaken))⟩
  · rintro ⟨h, hother⟩ taken htaken
    exact (mem_leaves_merge htaken).elim (h taken) (hother taken)

/-- Behind a path that ends at a group, to be apart from a selection is to be apart from the group. -/
theorem apartFrom_append_iff {tree sub : Selection} {path below : Path} (htree : Nested tree)
    (h : reach tree path = .inside sub) : ApartFrom tree (path ++ below) ↔ ApartFrom sub below := by
  constructor
  · intro hapart taken htaken
    exact (Path.apart_append_iff path).1 (hapart _ (mem_leaves_of_reach_inside htree h htaken))
  · intro hapart taken htaken
    rcases apart_or_mem_of_reach_inside htree h taken htaken with hpath | ⟨inner, hinner, rfl⟩
    · exact hpath.append_left below
    · exact (Path.apart_append_iff path).2 (hapart inner hinner)

theorem thin_prunedEntries_of {removal entries : Selection} (hremoval : Nested removal)
    (hfull : Fits full removal)
    (hnodes : ∀ entry ∈ entries, ∀ (tree : Selection) (path : Path), Nested tree → Fits full tree →
      path ≠ [] → (entry.2.pruned (reach tree path)).bind (Node.thin fun _ => true) =
        entry.2.thin fun below => decide (ApartFrom tree (path ++ below))) :
    thin (fun _ => true) (prunedEntries removal entries) =
      thin (fun leaf => decide (ApartFrom removal leaf)) entries := by
  rw [thin_eq_filterMap, thin_eq_filterMap, prunedEntries_eq_filterMap, List.filterMap_filterMap]
  refine List.filterMap_congr fun entry hentry => ?_
  rw [Option.bind_map, thinEntry, ← hnodes entry hentry removal _ hremoval hfull
    (Path.ofText_ne_nil entry.1), Option.map_bind]
  rfl

/-- All leaves behind a path that nothing is taken away at, in front of or behind are apart. -/
theorem thin_of_reach_outside {tree : Selection} {path : Path} (node : Node) (htree : Nested tree)
    (hreach : reach tree path = .outside) :
    node.thin (fun _ => true) = node.thin fun below => decide (ApartFrom tree (path ++ below)) := by
  refine thin_congr_node node fun below _ => (decide_eq_true ?_).symm
  exact fun taken htaken => (apart_of_reach_outside htree hreach taken htaken).append_left below

/-- No leaf behind a path that is taken away is apart. -/
theorem thin_of_reach_covered {tree : Selection} {path : Path} (node : Node) (htree : Nested tree)
    (hreach : reach tree path = .covered) :
    (node.thin fun below => decide (ApartFrom tree (path ++ below))) = none := by
  rw [← thin_false_node node]
  refine thin_congr_node node fun below _ => decide_eq_false fun hapart => ?_
  obtain ⟨taken, htaken, hbegin⟩ := covers_of_reach_covered htree hreach
  exact (hapart taken htaken).2 (hbegin.trans (List.prefix_append path below))

/-- What is left of a node, but for groups that were empty before, is made of the leaves that are apart
from what is taken away. -/
theorem thin_pruned (node : Node) : ∀ (tree : Selection) (path : Path), Nested tree →
    Fits full tree → path ≠ [] → (node.pruned (reach tree path)).bind (Node.thin fun _ => true) =
      node.thin fun below => decide (ApartFrom tree (path ++ below)) := by
  induction node using Node.ind with
  | marker n =>
    intro tree path htree hfull hpath
    cases hreach : reach tree path with
    | outside => rw [Node.pruned, Option.bind_some, thin_of_reach_outside _ htree hreach]
    | covered => rw [Node.pruned, Option.bind_none, thin_of_reach_covered _ htree hreach]
    | inside sub =>
      -- the whole field is named, and something behind it is taken away
      obtain ⟨hne, hsub⟩ := fits_of_reach_inside hpath hfull hreach
      obtain ⟨below, hbelow⟩ := exists_mem_leaves_of_full_of_ne_nil hsub hne
      have hnot : ¬ ApartFrom tree (path ++ []) := fun hapart =>
        (hapart _ (mem_leaves_of_reach_inside htree hreach hbelow)).1 (by simp)
      rw [Node.pruned, Option.bind_none, Node.thin, decide_eq_false hnot]
      rfl
  | group entries ih =>
    intro tree path htree hfull hpath
    cases hreach : reach tree path with
    | outside => rw [Node.pruned, Option.bind_some, thin_of_reach_outside _ htree hreach]
    | covered => rw [Node.pruned, Option.bind_none, thin_of_reach_covered _ htree hreach]
    | inside sub =>
      have hsub := full_canonical (fits_of_reach_inside hpath hfull hreach).2
      rw [pruned_inside, groupOf?_bind_thin, thin_prunedEntries_of (nested_canonical sub) hsub ih,
        ← thin_group]
      refine thin_congr_node _ fun below _ => decide_eq_decide.2 ?_
      rw [apartFrom_canonical_iff, apartFrom_append_iff htree hreach]

/-- Taking fields away thins a selection, but for groups that were empty before. -/
theorem thin_without {removal : Selection} (tree : Selection) (hremoval : Fits full removal) :
    thin (fun _ => true) (tree.without removal) =
      thin (fun leaf => decide (ApartFrom removal leaf)) tree := by
  rw [without, thin_prunedEntries_of (nested_canonical removal) (full_canonical hremoval)
    fun entry _ => thin_pruned entry.2]
  simp only [apartFrom_canonical_iff]

/-- The leaves that are left are those apart from all that is taken away, in their order and with their
markers. -/
theorem marks_without {removal : Selection} (tree : Selection) (hremoval : Fits full removal) :
    marks (tree.without removal) =
      (marks tree).filter fun mark => decide (ApartFrom removal mark.1) := by
  have hmarks := marks_thin (fun leaf => decide (ApartFrom removal leaf)) tree
  rw [← hmarks, ← thin_without tree hremoval, marks_thin, List.filter_true]

theorem mem_leaves_without_iff {m : Int32} {tree removal : Selection}
    (hremoval : Fits (written m) removal) {leaf : Path} :
    leaf ∈ leaves (tree.without removal) ↔
      leaf ∈ leaves tree ∧ ∀ taken ∈ leaves removal, Path.Apart leaf taken := by
  rw [leaves_eq_marks, marks_without tree (hremoval.mono (written_implies_full m)), leaves_eq_marks]
  simp only [List.mem_map, List.mem_filter, decide_eq_true_iff]
  constructor
  · rintro ⟨mark, ⟨hmark, hapart⟩, rfl⟩
    exact ⟨⟨mark, hmark, rfl⟩, hapart⟩
  · rintro ⟨⟨mark, hmark, rfl⟩, hapart⟩
    exact ⟨mark, ⟨hmark, hapart⟩, rfl⟩

/-- Where no group is empty, taking fields away thins a selection. -/
theorem without_eq_thin {tree removal : Selection} (htree : Fits full tree)
    (hremoval : Fits full removal) :
    tree.without removal = thin (fun leaf => decide (ApartFrom removal leaf)) tree := by
  rw [← thin_without tree hremoval, thin_true (full_without removal htree)]

theorem without_nil {tree : Selection} (htree : Fits full tree) : tree.without [] = tree := by
  rw [without_eq_thin htree (fits_nil full)]
  refine (thin_congr fun leaf _ => decide_eq_true ?_).trans (thin_true htree)
  simp [ApartFrom, leaves]

theorem without_self {tree : Selection} (htree : Fits full tree) : tree.without tree = [] := by
  rw [without_eq_thin htree htree]
  refine (thin_congr fun leaf hleaf => decide_eq_false ?_).trans (thin_false tree)
  exact fun hapart => (hapart leaf hleaf).1 leaf.prefix_refl

/-- To take fields away one after the other is to take their union away. -/
theorem without_without {tree removal other : Selection} (htree : Fits full tree)
    (hremoval : Fits full removal) (hother : Fits full other) :
    (tree.without removal).without other = tree.without (removal.merge other) := by
  rw [without_eq_thin (full_without removal htree) hother, without_eq_thin htree hremoval, thin_thin,
    without_eq_thin htree (fits_merge kept_full hremoval hother)]
  refine thin_congr fun leaf _ => ?_
  rw [← Bool.decide_and]
  exact decide_eq_decide.2 apartFrom_merge_iff.symm

/-- **What is left are the leaves apart from all that is taken away**, in their order and with their
markers, under the keys that they had, and no group is left empty.  So taking nothing away changes
nothing, taking all away leaves nothing, and taking fields away one after the other is taking their
union away. -/
theorem leaves_apart_stay {tree removal : Selection} (htree : Fits full tree)
    (hremoval : Fits full removal) :
    marks (tree.without removal) = (marks tree).filter (fun mark =>
        ∀ taken ∈ leaves removal, ¬ mark.1 <+: taken ∧ ¬ taken <+: mark.1) ∧
      Within (tree.without removal) tree ∧
      Fits full (tree.without removal) ∧
      tree.without [] = tree ∧
      tree.without tree = [] ∧
      ∀ other, Fits full other →
        (tree.without removal).without other = tree.without (removal.merge other) := by
  refine ⟨marks_without tree hremoval, ?_, full_without removal htree, without_nil htree,
    without_self htree, fun other hother => without_without htree hremoval hother⟩
  rw [without_eq_thin htree hremoval]
  exact within_thin _ tree

/-! ### A friend without the password -/

namespace FriendsWithPasswords

/-- `name friend.password friend { email password home.city }` -/
def asked : Selection :=
  [("name", .marker included), ("friend.password", .marker included),
    ("friend", .group [("email", .marker included), ("password", .marker included),
      ("home.city", .marker included)])]

/-- `friend.password friend { home { street } }` -/
def hidden : Selection :=
  [("friend.password", .marker excluded), ("friend", .group [("home", .group [("street", .marker excluded)])])]

theorem full_asked : Fits full asked := by
  simp [asked, Fits, has_group_iff, has_marker_iff, full]

theorem full_hidden : Fits full hidden := by
  simp [hidden, Fits, has_group_iff, has_marker_iff, full]

/-- The password goes under both of its keys, and the group with the rest of the friend stays. -/
theorem password_goes_in_both_spellings :
    Fits full asked ∧ Fits full hidden ∧
      marks (asked.without hidden) = [(["name"], included), (["friend", "email"], included),
        (["friend", "home", "city"], included)] ∧
      Within (asked.without hidden) asked ∧
      (asked.without hidden).without [("name", .marker excluded)] =
        asked.without (hidden.merge [("name", .marker excluded)]) := by
  obtain ⟨hmarks, hwithin, -, -, -, hmerge⟩ := leaves_apart_stay full_asked full_hidden
  refine ⟨full_asked, full_hidden, hmarks.trans (by decide +kernel), hwithin, hmerge _ ?_⟩
  simp [Fits, has_marker_iff, full]

end FriendsWithPasswords

end DocQuery.Selection
