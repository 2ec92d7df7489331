import DocQuery.Proofs.Query.Joins
import DocQuery.Proofs.Store.Bodies

/-!
# The fields that a query takes

A query takes the fields that are selected, and its joins instead of what is selected behind them
(`Compiler.taken`).  What is apart from the selection and from the joins is apart from all that is taken
(`Compiler.apart_taken`), and this is what the body of the projection stage asks for
(`Compiler.exists_body_of_some`).  Without a selection the body asks for the protected fields to be left
out (`Compiler.exists_body_of_none`).
-/

namespace DocQuery

open Selection Projection

namespace Selection

/-! ### Setting the marker of a path -/

variable {S : Shape} {tree : Selection} {path : Path} {m : Int32}

theorem mem_insert {key : String} {node : Node} {entry : String × Node}
    (h : entry ∈ tree.insert key node) : entry ∈ tree ∨ entry = (key, node) := Keyed.mem_adjust h

theorem replacePath_cons (key next : String) (rest : Path) (node : Node) :
    replacePath tree (key :: next :: rest) node =
      match tree.lookup key with
      | some (.marker _) => tree
      | some (.group sub) => tree.insert key (.group (replacePath sub (next :: rest) node))
      | none => tree.insert key (.group (replacePath [] (next :: rest) node)) := by
  cases hfound : tree.lookup key with
  | none => simp [replacePath, hfound]
  | some found => cases found <;> simp [replacePath, hfound]

/-- Setting a marker adds no leaf but its own path. -/
theorem mem_leaves_replacePath {leaf : Path} (hpath : ∀ key ∈ path, Path.Plain key)
    (h : leaf ∈ leaves (replacePath tree path (.marker m))) : leaf ∈ leaves tree ∨ leaf = path := by
  induction path generalizing tree leaf with
  | nil => exact .inl h
  | cons key rest ih =>
    rw [List.forall_mem_cons] at hpath
    have hof := Path.ofText_of_plain hpath.1
    cases rest with
    | nil =>
      obtain ⟨entry, hentry, below, hbelow, rfl⟩ := mem_leaves_iff.1 h
      rcases mem_insert hentry with hentry | rfl
      · exact .inl (mem_leaves_iff.2 ⟨entry, hentry, below, hbelow, rfl⟩)
      · rw [Node.leaves, List.mem_singleton] at hbelow
        exact .inr (by rw [hbelow, hof]; rfl)
    | cons next rest =>
      -- the entry of the first key holds the marker, the others stay
      have hgroup : ∀ sub : Selection,
          (∀ below ∈ leaves sub, key :: below ∈ leaves tree) →
          leaf ∈ leaves (tree.insert key (.group (replacePath sub (next :: rest) (.marker m)))) →
            leaf ∈ leaves tree ∨ leaf = key :: next :: rest := by
        intro sub hsub h
        obtain ⟨entry, hentry, below, hbelow, rfl⟩ := mem_leaves_iff.1 h
        rcases mem_insert hentry with hentry | rfl
        · exact .inl (mem_leaves_iff.2 ⟨entry, hentry, below, hbelow, rfl⟩)
        · rw [leaves_group] at hbelow
          rw [hof]
          exact (ih hpath.2 hbelow).imp (hsub below) fun heq => by rw [heq]; rfl
      rw [replacePath_cons] at h
      split at h
      · exact .inl h
      · next sub hsub =>
        refine hgroup sub ?_ h
        intro below hbelow
        refine mem_leaves_iff.2 ⟨_, Keyed.mem_of_lookup hsub, below, ?_, by rw [hof]; rfl⟩
        rwa [leaves_group]
      · exact hgroup [] (by simp [leaves]) h

/-- What the other keys of a selection cover. -/
def CoversBeside (tree : Selection) (key : String) (covered : Path) : Prop :=
  ∃ entry ∈ tree, entry.1 ≠ key ∧ ∃ rest, entry.2.Covers rest ∧ covered = entry.1 :: rest

/-- What is covered is covered behind a key or beside it. -/
theorem covers_iff_at (htree : Nested tree) (key : String) {covered : Path} :
    Covers tree covered ↔
      (∃ node rest, tree.lookup key = some node ∧ node.Covers rest ∧ covered = key :: rest) ∨
        CoversBeside tree key covered := by
  rw [covers_iff]
  constructor
  · rintro ⟨⟨name, node⟩, hentry, rest, hrest, rfl⟩
    rw [Path.ofText_of_plain (htree.2 _ hentry).1]
    by_cases hsame : name = key
    · subst hsame
      exact .inl ⟨node, rest, Keyed.lookup_of_mem htree.1 hentry, hrest, rfl⟩
    · exact .inr ⟨_, hentry, hsame, rest, hrest, rfl⟩
  · rintro (⟨node, rest, hnode, hrest, rfl⟩ | ⟨entry, hentry, -, rest, hrest, rfl⟩)
    · have hmem := Keyed.mem_of_lookup hnode
      exact ⟨_, hmem, rest, hrest, by rw [Path.ofText_of_plain (htree.2 _ hmem).1]; rfl⟩
    · exact ⟨entry, hentry, rest, hrest, by rw [Path.ofText_of_plain (htree.2 _ hentry).1]; rfl⟩

theorem covers_insert_iff (htree : Nested tree) {key : String} (hkey : Path.Plain key) {node : Node}
    {covered : Path} : Covers (tree.insert key node) covered ↔
      (∃ rest, node.Covers rest ∧ covered = key :: rest) ∨ CoversBeside tree key covered := by
  have hof := Path.ofText_of_plain hkey
  have hdistinct : Keyed.Distinct (tree.insert key node) := htree.1.adjust _ _
  have hself : (key, node) ∈ tree.insert key node := Keyed.self_mem_adjust key _ tree
  rw [covers_iff]
  constructor
  · rintro ⟨⟨name, found⟩, hentry, rest, hrest, rfl⟩
    by_cases hsame : name = key
    · subst hsame
      have hlookup := Keyed.lookup_of_mem hdistinct hself
      rw [Keyed.lookup_of_mem hdistinct hentry] at hlookup
      obtain rfl := Option.some.inj hlookup
      exact .inl ⟨rest, hrest, by rw [hof]; rfl⟩
    · have hmem := (mem_insert hentry).resolve_right fun h => hsame (congrArg Prod.fst h)
      rw [Path.ofText_of_plain (htree.2 _ hmem).1]
      exact .inr ⟨_, hmem, hsame, rest, hrest, rfl⟩
  · rintro (⟨rest, hrest, rfl⟩ | ⟨entry, hentry, hne, rest, hrest, rfl⟩)
    · exact ⟨_, hself, rest, hrest, by rw [hof]; rfl⟩
    · have hmem : entry ∈ tree.insert key node :=
        (Keyed.mem_adjust_of_mem hentry).resolve_right fun h => hne h.1
      exact ⟨entry, hmem, rest, hrest, by rw [Path.ofText_of_plain (htree.2 _ hentry).1]; rfl⟩

/-- A group that covers more than what stood at its key makes the selection cover that much more. -/
theorem covers_insert_group_iff (htree : Nested tree) {key : String} (hkey : Path.Plain key)
    {new : Selection} {behind : Path}
    (hnew : ∀ tail, Covers new tail ↔
      (∃ node, tree.lookup key = some node ∧ node.Covers tail) ∨ behind <+: tail) {covered : Path} :
    Covers (tree.insert key (.group new)) covered ↔
      Covers tree covered ∨ key :: behind <+: covered := by
  have hnode : ∀ tail, (Node.group new).Covers tail ↔
      (∃ node, tree.lookup key = some node ∧ node.Covers tail) ∨ behind <+: tail := by
    intro tail
    rw [Node.Covers, leaves_group]
    exact hnew tail
  rw [covers_insert_iff htree hkey, covers_iff_at htree key, List.cons_prefix_iff]
  simp only [hnode]
  constructor
  · rintro (⟨tail, ⟨node, hlookup, hcovers⟩ | htail, rfl⟩ | h)
    · exact .inl (.inl ⟨node, tail, hlookup, hcovers, rfl⟩)
    · exact .inr ⟨tail, rfl, htail⟩
    · exact .inl (.inr h)
  · rintro ((⟨node, tail, hlookup, hcovers, rfl⟩ | h) | ⟨tail, rfl, htail⟩)
    · exact .inl ⟨tail, .inl ⟨node, hlookup, hcovers⟩, rfl⟩
    · exact .inr h
    · exact .inl ⟨tail, .inr htail, rfl⟩

theorem covers_insert_marker_iff (htree : Nested tree) {key : String} (hkey : Path.Plain key)
    {covered : Path} :
    Covers (tree.insert key (.marker m)) covered ↔ Covers tree covered ∨ [key] <+: covered := by
  rw [covers_insert_iff htree hkey, covers_iff_at htree key, List.cons_prefix_iff]
  simp only [covers_marker, List.nil_prefix, true_and, and_true]
  constructor
  · exact fun h => h.elim .inr fun h => .inl (.inr h)
  · rintro ((⟨_, tail, -, -, h⟩ | h) | h)
    · exact .inl ⟨tail, h⟩
    · exact .inr h
    · exact .inl h

/-- Setting a marker covers what was covered, and what lies behind the path of the marker. -/
theorem covers_replacePath_iff (htree : Nested tree) (hpath : ∀ key ∈ path, Path.Plain key)
    (hne : path ≠ []) {covered : Path} :
    Covers (replacePath tree path (.marker m)) covered ↔ Covers tree covered ∨ path <+: covered := by
  induction path generalizing tree covered with
  | nil => exact absurd rfl hne
  | cons key rest ih =>
    rw [List.forall_mem_cons] at hpath
    cases rest with
    | nil => exact covers_insert_marker_iff htree hpath.1
    | cons next rest =>
      rw [replacePath_cons]
      split
      · next n hlookup =>
        rw [covers_iff_at htree key, List.cons_prefix_iff]
        refine ⟨.inl, fun h => h.elim id ?_⟩
        rintro ⟨tail, rfl, -⟩
        exact .inl ⟨_, tail, hlookup, covers_marker n tail, rfl⟩
      · next sub hlookup =>
        have hsub := has_group_iff.1 (htree.2 _ (Keyed.mem_of_lookup hlookup)).2
        refine covers_insert_group_iff htree hpath.1 fun tail => ?_
        rw [ih hsub hpath.2 (by simp)]
        simp [hlookup, Node.Covers, leaves_group, Covers]
      · next hlookup =>
        have hnil : Nested [] := ⟨List.nodup_nil, fits_nil nested⟩
        refine covers_insert_group_iff htree hpath.1 fun tail => ?_
        rw [ih hnil hpath.2 (by simp)]
        simp [hlookup, Covers, leaves]

theorem group_replacePath (hS : S.Kept) {node : Node} (hpath : path ≠ [])
    (h : S.group tree ∨ tree = []) : S.group (replacePath tree path node) := by
  have hinsert : ∀ (key : String) (node : Node), S.group (tree.insert key node) := by
    intro key node
    rcases h with h | rfl
    · exact hS.adjust _ _ _ h
    · exact hS.single _ _
  obtain ⟨key, rest, rfl⟩ := List.exists_cons_of_ne_nil hpath
  cases rest with
  | nil => exact hinsert key node
  | cons next rest =>
    rw [replacePath_cons]
    split
    · next hmarker =>
      refine h.resolve_right ?_
      rintro rfl
      cases hmarker
    · exact hinsert key _
    · exact hinsert key _

theorem fits_replacePath (hS : S.Kept) {node : Node} (htree : Fits S tree)
    (hpath : ∀ key ∈ path, S.key key) (hnode : node.Has S) : Fits S (replacePath tree path node) := by
  induction path generalizing tree with
  | nil => exact htree
  | cons key rest ih =>
    rw [List.forall_mem_cons] at hpath
    have hinsert : ∀ new : Node, new.Has S → Fits S (tree.insert key new) := by
      intro new hnew entry hentry
      rcases mem_insert hentry with hentry | rfl
      · exact htree entry hentry
      · exact ⟨hpath.1, hnew⟩
    cases rest with
    | nil => exact hinsert node hnode
    | cons next rest =>
      rw [replacePath_cons]
      split
      · exact htree
      · next sub hsub =>
        obtain ⟨hgroup, hfits⟩ := has_group_iff.1 (htree _ (Keyed.mem_of_lookup hsub)).2
        have hnew : S.group (replacePath sub (next :: rest) node) :=
          group_replacePath hS (by simp) (.inl hgroup)
        exact hinsert _ (has_group_iff.2 ⟨hnew, ih hfits hpath.2⟩)
      · have hnew : S.group (replacePath [] (next :: rest) node) :=
          group_replacePath hS (by simp) (.inr rfl)
        exact hinsert _ (has_group_iff.2 ⟨hnew, ih (fits_nil S) hpath.2⟩)

theorem mem_keys_replacePath {key : String} {node : Node} (h : key ∈ Keyed.keys tree) :
    key ∈ Keyed.keys (replacePath tree path node) := by
  have hinsert : ∀ (other : String) (new : Node), key ∈ Keyed.keys (tree.insert other new) :=
    fun other new => Keyed.mem_keys_adjust.2 (.inr h)
  cases path with
  | nil => exact h
  | cons first rest =>
    cases rest with
    | nil => exact hinsert first node
    | cons next rest =>
      rw [replacePath_cons]
      split
      · exact h
      · exact hinsert first _
      · exact hinsert first _

/-! ### Selections that are never empty -/

/-- A selection, or that of the ids if it is empty. -/
def orId (tree : Selection) : Selection :=
  if tree.isEmpty then [("_id", .marker included)] else tree

theorem nested_orId (h : Nested tree) : Nested (orId tree) := by
  rw [orId]
  split
  · exact ⟨kept_nested.single _ _, by simp [Fits, nested, Node.Has, Path.Plain]⟩
  · exact h

theorem fits_orId (h : Fits (written included) tree) : Fits (written included) (orId tree) := by
  rw [orId]
  split
  · refine List.forall_mem_singleton.2 ⟨?_, has_marker_iff.2 rfl⟩
    show WrittenKey "_id"
    rw [WrittenKey, Path.ofText_of_plain (by decide), List.forall_mem_singleton]
    decide
  · exact h

theorem exists_key_orId (tree : Selection) : ∃ key, key ∈ Keyed.keys (orId tree) := by
  cases tree with
  | nil => exact ⟨"_id", List.mem_cons_self⟩
  | cons entry rest => exact ⟨entry.1, List.mem_cons_self⟩

theorem mem_leaves_orId {leaf : Path} (h : leaf ∈ leaves (orId tree)) :
    leaf ∈ leaves tree ∨ leaf = ["_id"] := by
  cases tree with
  | nil =>
    have hid : leaves (orId []) = [["_id"]] := by decide
    rw [hid] at h
    exact .inr (List.mem_singleton.1 h)
  | cons entry rest => exact .inl h

/-- The body of a selection, or that of the ids if it is empty. -/
theorem toDocument_orId (h : Nested tree) :
    (match tree.toDocument with
      | [] => [("_id", .int32 included)]
      | body => body) = (orId tree).toDocument := by
  cases tree with
  | nil => rfl
  | cons entry rest =>
    obtain ⟨key, node⟩ := entry
    have hdoc : Selection.toDocument ((key, node) :: rest) = (key, node.toValue) :: toFields rest :=
      ofFields_toFields h.1
    rw [orId, if_neg (by simp), hdoc]

/-- A path without `_id` that is apart from the leaves of a selection is apart from what it takes. -/
theorem apart_orId {path : Path} (hapart : ∀ leaf ∈ leaves tree, Path.Apart leaf path)
    (hid : "_id" ∉ path) (hpath : path ≠ []) :
    ∀ leaf ∈ leaves (orId tree), Path.Apart leaf path := by
  intro leaf hleaf
  rcases mem_leaves_orId hleaf with hleaf | rfl
  · exact hapart leaf hleaf
  · obtain ⟨key, rest, rfl⟩ := List.exists_cons_of_ne_nil hpath
    exact Path.apart_cons_of_ne fun e => hid (by simp [e])

/-- A selection of fields that all begin with the one of the relevance. -/
def ScoreOnly (selection : Selection) : Prop :=
  leaves selection ≠ [] ∧ ∀ leaf ∈ leaves selection, leaf.head? = some scoreField

end Selection

/-! ### The body of a query -/

namespace Compiler

variable {collection : Collection} {selection : Selection} {joins : List Join}

/-- A selection in which each joined field is taken as a whole. -/
def marked (tree : Selection) (joins : List Join) : Selection :=
  joins.foldl (fun tree join =>
    replacePath tree (Path.ofText join.field) (.marker included)) tree

theorem mem_leaves_marked {tree : Selection} {leaf : Path} (h : leaf ∈ leaves (marked tree joins)) :
    leaf ∈ leaves tree ∨ ∃ join ∈ joins, leaf = Path.ofText join.field := by
  induction joins generalizing tree with
  | nil => exact .inl h
  | cons join rest ih =>
    rw [List.exists_mem_cons_iff, ← or_assoc]
    refine (ih h).imp_left fun h => ?_
    exact mem_leaves_replacePath (fun _ hkey => Path.plain_of_mem_ofText hkey) h

theorem fits_marked {S : Shape} (hS : S.Kept) (hmarker : S.marker included) {tree : Selection}
    (htree : Fits S tree) (hfields : ∀ join ∈ joins, ∀ key ∈ Path.ofText join.field, S.key key) :
    Fits S (marked tree joins) := by
  induction joins generalizing tree with
  | nil => exact htree
  | cons join rest ih =>
    rw [List.forall_mem_cons] at hfields
    exact ih (fits_replacePath hS htree hfields.1 (has_marker_iff.2 hmarker)) hfields.2

theorem nested_marked {tree : Selection} (h : Nested tree) : Nested (marked tree joins) := by
  refine ⟨?_, fits_marked kept_nested trivial h.2 fun _ _ _ => Path.plain_of_mem_ofText⟩
  have hgroup := h.1
  clear h
  induction joins generalizing tree with
  | nil => exact hgroup
  | cons join rest ih =>
    exact ih (group_replacePath kept_nested (Path.ofText_ne_nil _) (.inl hgroup))

/-- Marking fields covers what was covered, and what lies behind the fields. -/
theorem covers_marked_iff {tree : Selection} (h : Nested tree) {path : Path} :
    Covers (marked tree joins) path ↔
      Covers tree path ∨ ∃ join ∈ joins, Path.ofText join.field <+: path := by
  induction joins generalizing tree with
  | nil => simp [marked]
  | cons join rest ih =>
    have hplain : ∀ key ∈ Path.ofText join.field, Path.Plain key :=
      fun _ => Path.plain_of_mem_ofText
    have hnext : Nested (marked tree [join]) := nested_marked h
    rw [List.exists_mem_cons_iff, ← or_assoc,
      ← covers_replacePath_iff h hplain (Path.ofText_ne_nil _)]
    exact ih hnext

theorem mem_keys_marked {tree : Selection} {key : String} (h : key ∈ Keyed.keys tree) :
    key ∈ Keyed.keys (marked tree joins) := by
  induction joins generalizing tree with
  | nil => exact h
  | cons join rest ih => exact ih (mem_keys_replacePath h)

/-- What a query takes of each document. -/
def taken (selection : Selection) (joins : List Join) : Selection :=
  orId (marked selection.canonical joins)

theorem nested_taken (selection : Selection) (joins : List Join) : Nested (taken selection joins) :=
  nested_orId (nested_marked (nested_canonical selection))

theorem fits_marked_canonical (hselection : Fits (written included) selection)
    (hjoins : Join.AllPlanned collection (leaves selection) joins) :
    Fits (written included) (marked selection.canonical joins) := by
  refine fits_marked (kept_written included) rfl (fits_canonical hselection) ?_
  intro join hjoin key hkey
  obtain ⟨path, hpath, hbegin⟩ := (hjoins.each join hjoin).towards
  exact writtenKey_of_mem_leaves hselection hpath key (hbegin.subset hkey)

theorem fits_taken (hselection : Fits (written included) selection)
    (hjoins : Join.AllPlanned collection (leaves selection) joins) :
    Fits (written included) (taken selection joins) :=
  fits_orId (fits_marked_canonical hselection hjoins)

/-- A path is apart from what a query takes if it is apart from what is selected and from the fields of
the joins. -/
theorem apart_taken {path : Path} (hselection : ∀ leaf ∈ leaves selection, Path.Apart leaf path)
    (hjoins : ∀ join ∈ joins, Path.Apart (Path.ofText join.field) path) (hid : "_id" ∉ path)
    (hpath : path ≠ []) : ∀ leaf ∈ leaves (taken selection joins), Path.Apart leaf path := by
  refine apart_orId ?_ hid hpath
  intro leaf hleaf
  rcases mem_leaves_marked hleaf with hleaf | ⟨join, hjoin, rfl⟩
  · exact hselection leaf (mem_leaves_canonical hleaf)
  · exact hjoins join hjoin

/-! ### Nothing but the relevance -/

/-- The first key of a leaf stays a key of what is taken. -/
theorem mem_keys_taken {leaf : Path} (hleaf : leaf ∈ leaves selection) :
    taken selection joins = marked selection.canonical joins ∧
      ∃ key, leaf.head? = some key ∧ key ∈ Keyed.keys (taken selection joins) := by
  obtain ⟨below, hbelow, tail, rfl⟩ := covers_canonical (covers_of_mem hleaf)
  obtain ⟨⟨key, node⟩, hnode, rest, -, rfl⟩ := mem_leaves_iff.1 hbelow
  have hkey : key ∈ Keyed.keys (marked selection.canonical joins) :=
    mem_keys_marked (List.mem_map.2 ⟨_, hnode, rfl⟩)
  have htaken : taken selection joins = marked selection.canonical joins := by
    rw [taken, orId, if_neg]
    rw [List.isEmpty_iff]
    intro hnil
    rw [hnil] at hkey
    cases hkey
  refine ⟨htaken, key, ?_, htaken ▸ hkey⟩
  rw [Path.ofText_of_plain ((nested_canonical selection).2 _ hnode).1]
  rfl

theorem keys_taken_of_scoreOnly (hselection : Fits (written included) selection)
    (hjoins : Join.AllPlanned collection (leaves selection) joins) (h : ScoreOnly selection) :
    ∀ key ∈ Keyed.keys (taken selection joins), key = scoreField := by
  intro key hkey
  obtain ⟨⟨name, node⟩, hnode, rfl⟩ := List.mem_map.1 hkey
  obtain ⟨below, hbelow⟩ := exists_mem_leaves node (fits_taken hselection hjoins _ hnode).2
  obtain ⟨leaf, hleaf⟩ := List.exists_mem_of_ne_nil _ h.1
  have hmem := mem_leaves_of_fits_nested (nested_taken selection joins).2 hnode hbelow
  rw [(mem_keys_taken hleaf).1] at hmem
  rcases mem_leaves_marked hmem with hmem | ⟨join, hjoin, heq⟩
  · exact Option.some.inj (h.2 _ (mem_leaves_canonical hmem))
  · obtain ⟨path, hpath, tail, rfl⟩ := (hjoins.each join hjoin).towards
    have hhead := h.2 _ hpath
    rw [← heq] at hhead
    exact Option.some.inj hhead

theorem exists_key_taken_of_not_scoreOnly (hselection : Fits (written included) selection)
    (hjoins : Join.AllPlanned collection (leaves selection) joins) (h : ¬ ScoreOnly selection) :
    ∃ key ∈ Keyed.keys (taken selection joins), key ≠ scoreField := by
  by_cases hleaves : leaves selection = []
  · -- nothing is selected, so there are no joins, and the ids are taken
    have hnil : selection = [] := by
      by_contra hne
      obtain ⟨leaf, hleaf⟩ := exists_mem_leaves_of_ne_nil hselection hne
      rw [hleaves] at hleaf
      cases hleaf
    have hnone : joins = [] := by
      by_contra hne
      obtain ⟨join, hjoin⟩ := List.exists_mem_of_ne_nil _ hne
      obtain ⟨path, hpath, -⟩ := (hjoins.each join hjoin).towards
      rw [hleaves] at hpath
      cases hpath
    subst hnil hnone
    exact ⟨"_id", List.mem_cons_self, by decide⟩
  · obtain ⟨leaf, hleaf, hhead⟩ : ∃ leaf ∈ leaves selection, leaf.head? ≠ some scoreField := by
      by_contra hall
      push Not at hall
      exact h ⟨hleaves, hall⟩
    obtain ⟨key, hkey, hmem⟩ : ∃ key, leaf.head? = some key ∧ key ∈ Keyed.keys (taken selection joins) :=
      (mem_keys_taken hleaf).2
    refine ⟨key, hmem, ?_⟩
    rintro rfl
    exact hhead hkey

/-! ### The projection stage -/

/-- The body of the fields, and of the relevance for a text search. -/
theorem exists_body {c : Compiler} {selection : Option Selection} {tree : Selection}
    (h : Asks tree false (c.projectFields selection joins)) (hkey : ∃ key, key ∈ Keyed.keys tree)
    (scored : Bool) : ∃ body, c.projectDocument selection joins scored = some body ∧
      Asks tree scored body := by
  obtain ⟨body, hbody, hasks⟩ : ∃ body, (if scored then (c.projectFields selection joins).put scoreField
      Direction.relevance.toValue else c.projectFields selection joins) = body ∧
        Asks tree scored body := by
    cases scored with
    | false => exact ⟨_, rfl, h⟩
    | true => exact ⟨_, rfl, h.score⟩
  refine ⟨body, ?_, hasks⟩
  rw [projectDocument, hbody, if_neg]
  rw [List.isEmpty_iff]
  rintro rfl
  obtain ⟨key, hkey⟩ := hkey
  have hget := hasks.get? key
  split at hget
  · cases hget
  · have hnone : tree.lookup key = none := Option.map_eq_none_iff.1 hget.symm
    exact Keyed.lookup_eq_none_iff.1 hnone hkey

/-- With a selection the body asks for what is taken. -/
theorem exists_body_of_some (c : Compiler) (selection : Selection) (joins : List Join) (scored : Bool) :
    ∃ body, c.projectDocument (some selection) joins scored = some body ∧
      Asks (taken selection joins) scored body := by
  refine exists_body ?_ (exists_key_orId _) scored
  have hfields : c.projectFields (some selection) joins = (taken selection joins).toDocument :=
    toDocument_orId (nested_marked (nested_canonical selection))
  rw [hfields]
  exact asks_toDocument (nested_taken selection joins)

/-- Without a selection the body asks for the protected fields to be left out. -/
theorem exists_body_of_none (c : Compiler) (scored : Bool) {leaf : Path}
    (hleaf : leaf ∈ leaves c.protectedFields.canonical) :
    ∃ body, c.projectDocument none [] scored = some body ∧
      Asks c.protectedFields.canonical scored body := by
  refine exists_body (asks_toDocument (nested_canonical _)) ?_ scored
  obtain ⟨entry, hentry, -⟩ := mem_leaves_iff.1 hleaf
  exact ⟨entry.1, List.mem_map.2 ⟨entry, hentry, rfl⟩⟩

end Compiler

end DocQuery
