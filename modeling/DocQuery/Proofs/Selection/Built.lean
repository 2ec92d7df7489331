import DocQuery.Proofs.Selection.Union
import DocQuery.Proofs.Selection.Without
import DocQuery.Proofs.Store.Bodies

/-!
# No key stands twice

Whatever is done to selections, none gets a key twice in a group (`Built.distinct`): reading and all the
operations keep the keys of each group distinct, as long as the selections that they are given are like
that too.  So every entry has a field of its own in the body of a projection stage, in the same order and
at every level (`Distinct.shownBy_toDocument`).
-/

namespace DocQuery.Selection

/-! ### What can be built -/

mutual

/-- A node that can be handed to an operation: a marker, a selection that can be built, or what such a
selection holds at a key. -/
inductive Node.Built : Node → Prop
  | marker (n : Int32) : Node.Built (.marker n)
  | group {tree : List (String × Node)} (h : Built tree) : Node.Built (.group tree)
  | found {tree : List (String × Node)} {key : String} {node : Node} (h : Built tree)
    (hlookup : tree.lookup key = some node) : Node.Built node

/-- A selection that can be built from the empty one by reading and by operations. -/
inductive Built : List (String × Node) → Prop
  | empty : Built []
  | read {m : Int32} {s : String} {tree : List (String × Node)} (h : readOrError m s = .ok tree) :
    Built tree
  | inside {entries : List (String × Node)} (h : Node.Built (.group entries)) : Built entries
  | insert {tree : List (String × Node)} {node : Node} (key : String) (h : Built tree)
    (hnode : node.Built) : Built (Selection.insert tree key node)
  | remove {tree : List (String × Node)} (key : String) (h : Built tree) :
    Built (Selection.remove tree key).2
  | mergeEntry {tree : List (String × Node)} {node : Node} (key : String) (h : Built tree)
    (hnode : node.Built) : Built (Selection.mergeEntry tree key node)
  | mergePath {tree : List (String × Node)} {node : Node} (path : String) (h : Built tree)
    (hnode : node.Built) : Built (Selection.mergePath tree (Path.ofText path) node)
  | replacePath {tree : List (String × Node)} {node : Node} (path : String) (h : Built tree)
    (hnode : node.Built) : Built (Selection.replacePath tree (Path.ofText path) node)
  | merge {tree other : List (String × Node)} (h : Built tree) (hother : Built other) :
    Built (Selection.merge tree other)
  | without {tree removal : List (String × Node)} (h : Built tree) (hremoval : Built removal) :
    Built (Selection.without tree removal)
  | canonical {tree : List (String × Node)} (h : Built tree) : Built (Selection.canonical tree)

end

/-! ### Operations keep keys distinct -/

variable {tree other : Selection} {node : Node}

theorem Distinct.insert (h : Distinct tree) (key : String) (hnode : node.Has distinct) :
    Distinct (tree.insert key node) := by
  refine ⟨h.1.adjust key _, fun entry hentry => ?_⟩
  rcases Keyed.mem_adjust hentry with hentry | rfl
  · exact h.2 entry hentry
  · exact ⟨trivial, hnode⟩

theorem Distinct.remove (h : Distinct tree) (key : String) : Distinct (tree.remove key).2 :=
  ⟨h.1.erase key, fun entry hentry => h.2 entry ((Keyed.erase_sublist key tree).mem hentry)⟩

theorem distinct_singleton (key : String) (hnode : node.Has distinct) : Distinct [(key, node)] :=
  ⟨kept_distinct.single key node, List.forall_mem_singleton.2 ⟨trivial, hnode⟩⟩

theorem Distinct.mergeEntry (h : Distinct tree) (key : String) (hnode : node.Has distinct) :
    Distinct (mergeEntry tree key node) := h.merge (distinct_singleton key hnode)

theorem Distinct.mergePath (h : Distinct tree) (path : String) (hnode : node.Has distinct) :
    Distinct (mergePath tree (Path.ofText path) node) :=
  ⟨group_mergePath kept_distinct (Path.ofText_ne_nil path) (.inl h.1),
    fits_mergePath kept_distinct h.2 (fun _ _ => trivial) hnode⟩

theorem Distinct.replacePath (h : Distinct tree) (path : Path) (hnode : node.Has distinct) :
    Distinct (replacePath tree path node) := by
  induction path generalizing tree with
  | nil => exact h
  | cons key path ih =>
    cases path with
    | nil => exact h.insert key hnode
    | cons next path =>
      rw [Selection.replacePath]
      · split
        · exact h
        · next sub hlookup =>
          have hsub : Distinct sub := has_group_iff.1 (h.node hlookup)
          exact h.insert key (has_group_iff.2 (ih hsub))
        · exact h.insert key (has_group_iff.2 (ih distinct_nil))
      · simp

theorem keptByTaking_distinct : distinct.KeptByTaking := fun _ _ hkeys _ h => h.sublist hkeys

theorem Distinct.without (h : Distinct tree) (removal : Selection) : Distinct (tree.without removal) :=
  ⟨h.1.sublist (keys_prunedEntries_sublist _ tree), fits_without_of keptByTaking_distinct removal h.2⟩

theorem nested_implies_distinct : nested.Implies distinct where
  key _ _ := trivial
  group _ h := h
  marker _ _ := trivial

theorem distinct_canonical (tree : Selection) : Distinct tree.canonical :=
  ⟨(nested_canonical tree).1, (nested_canonical tree).2.mono nested_implies_distinct⟩

mutual

theorem Node.Built.has_distinct {node : Node} : node.Built → node.Has distinct
  | .marker n => has_marker_iff.2 trivial
  | .group h => has_group_iff.2 h.distinct
  | .found h hlookup => h.distinct.node hlookup

/-- In a selection that can be built, no key stands twice in a group. -/
theorem Built.distinct {tree : Selection} : Built tree → Distinct tree
  | .empty => distinct_nil
  | .read h => (wellFormed_read (Outcome.mapError_eq_ok_iff.1 h)).distinct
  | .inside h => has_group_iff.1 h.has_distinct
  | .insert key h hnode => h.distinct.insert key hnode.has_distinct
  | .remove key h => h.distinct.remove key
  | .mergeEntry key h hnode => h.distinct.mergeEntry key hnode.has_distinct
  | .mergePath path h hnode => h.distinct.mergePath path hnode.has_distinct
  | .replacePath path h hnode => h.distinct.replacePath _ hnode.has_distinct
  | .merge h hother => h.distinct.merge hother.distinct
  | .without h _ => h.distinct.without _
  | .canonical _ => distinct_canonical _

end

/-! ### Rendering -/

mutual

/-- A value shows a node: the number of a marker, or a document with a field for each entry of a group. -/
inductive Node.ShownBy : Node → Value → Prop
  | marker (n : Int32) : Node.ShownBy (.marker n) (.int32 n)
  | group {entries : List (String × Node)} {fields : List (String × Value)} (h : ShownBy entries fields) :
    Node.ShownBy (.group entries) (.document fields)

/-- Fields show entries: one field for each entry, under its key and in the same order. -/
inductive ShownBy : List (String × Node) → List (String × Value) → Prop
  | nil : ShownBy [] []
  | cons (key : String) {node : Node} {value : Value} {rest : List (String × Node)}
    {fields : List (String × Value)} (hnode : Node.ShownBy node value) (h : ShownBy rest fields) :
    ShownBy ((key, node) :: rest) ((key, value) :: fields)

end

theorem shownBy_toFields {entries : Selection}
    (hnodes : ∀ entry ∈ entries, entry.2.ShownBy entry.2.toValue) :
    ShownBy entries (toFields entries) := by
  induction entries with
  | nil => exact .nil
  | cons entry rest ih =>
    rw [List.forall_mem_cons] at hnodes
    exact .cons entry.1 hnodes.1 (ih hnodes.2)

theorem shownBy_toValue (node : Node) : node.Has distinct → node.ShownBy node.toValue := by
  induction node using Node.ind with
  | marker n => exact fun _ => .marker n
  | group entries ih =>
    intro h
    obtain ⟨hkeys, hfits⟩ := has_group_iff.1 h
    rw [Node.toValue, ofFields_toFields hkeys]
    exact .group (shownBy_toFields fun entry hentry => ih entry hentry (hfits entry hentry).2)

/-- Where no key stands twice, each entry has a field of its own. -/
theorem Distinct.shownBy_toDocument (h : Distinct tree) : ShownBy tree tree.toDocument := by
  rw [toDocument, ofFields_toFields h.1]
  exact shownBy_toFields fun entry hentry => shownBy_toValue entry.2 (h.2 entry hentry).2

/-- **No operation gives a selection a key twice.**  Whatever is built from the empty selection, from
selections that were read or built in the same way, and from what stands in them, has distinct keys at
every level, and the body of a projection stage has a field for each of its entries, under the same keys
and in the same order, at every level. -/
theorem built_distinct_and_shown (h : Built tree) : Distinct tree ∧ ShownBy tree tree.toDocument :=
  ⟨h.distinct, h.distinct.shownBy_toDocument⟩

/-! ### Friends with passwords and phones -/

namespace FriendsWithPhones

/-- `friend { name password } friend.phone` -/
def asked : Selection :=
  [("friend", .group [("name", .marker included), ("password", .marker included)]),
    ("friend.phone", .marker included)]

/-- `friend.password` -/
def hidden : Selection := [("friend.password", .marker excluded)]

/-- What is asked for, with the city of the home put in, and what is hidden taken out. -/
def shown : Selection :=
  (mergePath asked.canonical (Path.ofText "friend.home.city") (.marker included)).without hidden

theorem built_shown : Built shown := by
  have hasked : readOrError included "friend \x7b name password \x7d friend.phone" = .ok asked := by rfl
  have hhidden : readOrError excluded "friend.password" = .ok hidden := by rfl
  exact .without (.mergePath _ (.canonical (.read hasked)) (.marker included)) (.read hhidden)

/-- The friend stands there once, whatever was merged into it. -/
theorem friend_stands_once :
    Built shown ∧
      leaves shown = [["friend", "name"], ["friend", "phone"], ["friend", "home", "city"]] ∧
      Keyed.keys shown = ["friend"] ∧ Distinct shown ∧ ShownBy shown shown.toDocument := by
  obtain ⟨hdistinct, hfields⟩ := built_distinct_and_shown built_shown
  exact ⟨built_shown, by decide +kernel, by decide +kernel, hdistinct, hfields⟩

end FriendsWithPhones

end DocQuery.Selection
