import DocQuery.Proofs.Selection.Canonical
import DocQuery.Proofs.Selection.Printed

/-!
# The laws of the union

A union has the keys of its first side, and behind them those that only its second side has
(`keys_merge`); at each key stands the union of what the sides have there (`lookup_merge`).  Where no key
stands twice this says all about a union, so the laws of `merge` are those of nodes, level by level:
it is associative with the order of the keys (`merge_assoc`), idempotent (`merge_self`), has the empty
selection on both sides as its unit (`nil_merge`), and with one marker throughout only the order of the
keys depends on the order of the sides (`permuted_merge_comm`).

Merging items into a selection is then merging what they write by themselves (`addAll_eq_merge`), so
what is read from two texts with a blank between them is the union of what is read from each.
-/

namespace DocQuery.Selection

/-- The shape of a selection in which no key stands twice in a group. -/
def distinct : Shape := ⟨fun _ => True, Keyed.Distinct, fun _ => True⟩

/-- A selection in which no key stands twice at any level. -/
def Distinct (tree : Selection) : Prop := Keyed.Distinct tree ∧ Fits distinct tree

theorem kept_distinct : distinct.Kept where
  adjust key f _ h := Keyed.Distinct.adjust h key f
  single key node := by simp [distinct, Keyed.Distinct, Keyed.keys]

theorem spelled_implies_distinct (m : Int32) : (spelled m).Implies distinct where
  key _ _ := trivial
  group _ h := h.2
  marker _ _ := trivial

theorem spelled_implies_uniform (m : Int32) : (spelled m).Implies (uniform m) where
  key _ _ := trivial
  group _ _ := trivial
  marker _ h := h

theorem WellFormed.distinct {m : Int32} {tree : Selection} (h : WellFormed m tree) : Distinct tree :=
  ⟨h.1, h.2.mono (spelled_implies_distinct m)⟩

theorem distinct_nil : Distinct [] := ⟨List.nodup_nil, fits_nil _⟩

theorem Distinct.node {tree : Selection} (h : Distinct tree) {key : String} {node : Node}
    (hlookup : tree.lookup key = some node) : node.Has distinct :=
  (h.2 _ (Keyed.mem_of_lookup hlookup)).2

theorem Distinct.merge {tree other : Selection} (htree : Distinct tree) (hother : Distinct other) :
    Distinct (tree.merge other) :=
  ⟨group_merge kept_distinct other htree.1, fits_merge kept_distinct htree.2 hother.2⟩

/-! ### What a union holds -/

/-- The keys of the first side, and behind them the new ones of the second side. -/
theorem keys_merge {tree other : Selection} (hother : Keyed.Distinct other) :
    Keyed.keys (tree.merge other) =
      Keyed.keys tree ++ (Keyed.keys other).filter (· ∉ Keyed.keys tree) := by
  induction other generalizing tree with
  | nil => simp [merge, Keyed.keys]
  | cons entry rest ih =>
    obtain ⟨key, node⟩ := entry
    obtain ⟨hkey, hrest⟩ := List.nodup_cons.1 hother
    have hkeys : Keyed.keys ((key, node) :: rest) = key :: Keyed.keys rest := rfl
    rw [merge_cons, ih hrest, mergeEntry_eq, Keyed.keys_adjust, hkeys]
    split
    · next hmem => rw [List.filter_cons_of_neg (by simpa using hmem)]
    · next hmem =>
      rw [List.filter_cons_of_pos (by simpa using hmem), List.append_assoc, List.singleton_append]
      -- the key itself stands no more in the rest
      refine congrArg (Keyed.keys tree ++ key :: ·) (List.filter_congr fun name hname => ?_)
      have hne : name ≠ key := fun e => hkey (e ▸ hname)
      simp [hne]

theorem unionWith_eq (node : Node) (found : Option Node) :
    some (unionWith node found) = Option.merge Node.union found (some node) := by
  cases found <;> rfl

/-- At each key the union of what both sides have there. -/
theorem lookup_merge {tree other : Selection} (hother : Keyed.Distinct other) (key : String) :
    (tree.merge other).lookup key = Option.merge Node.union (tree.lookup key) (other.lookup key) := by
  induction other generalizing tree with
  | nil => simp [merge]
  | cons entry rest ih =>
    obtain ⟨name, node⟩ := entry
    obtain ⟨hname, hrest⟩ := List.nodup_cons.1 hother
    rw [merge_cons, ih hrest, mergeEntry_eq]
    by_cases hkey : key = name
    · subst hkey
      rw [Keyed.lookup_adjust_self, unionWith_eq, Keyed.lookup_eq_none_iff.2 hname,
        List.lookup_cons_self, Option.merge_none_right]
    · have hbeq : (key == name) = false := by simpa using hkey
      rw [Keyed.lookup_adjust_of_ne hkey, List.lookup_cons, hbeq]

/-! ### The empty selection -/

theorem merge_nil (tree : Selection) : tree.merge [] = tree := by rw [merge]

theorem nil_merge {tree : Selection} (h : Keyed.Distinct tree) : merge [] tree = tree := by
  refine Keyed.eq_of_lookup (group_merge kept_distinct tree List.nodup_nil) ?_ fun key => ?_
  · rw [keys_merge h]
    simp [Keyed.keys]
  · rw [lookup_merge h]
    simp

/-! ### Twice the same -/

theorem merge_self_of {tree : Selection} (h : Keyed.Distinct tree)
    (hnodes : ∀ entry ∈ tree, entry.2.union entry.2 = entry.2) : tree.merge tree = tree := by
  refine Keyed.eq_of_lookup (group_merge kept_distinct tree h) ?_ fun key => ?_
  · rw [keys_merge h]
    simp
  · rw [lookup_merge h]
    cases hlookup : tree.lookup key with
    | none => rfl
    | some node => exact congrArg some (hnodes _ (Keyed.mem_of_lookup hlookup))

theorem union_self (node : Node) : node.Has distinct → node.union node = node := by
  induction node using Node.ind with
  | marker n => exact fun _ => by rw [Node.union]
  | group entries ih =>
    intro h
    obtain ⟨hdistinct, hfits⟩ := has_group_iff.1 h
    rw [Node.union, merge_self_of hdistinct fun entry hentry => ih entry hentry (hfits entry hentry).2]

/-- A union with itself changes nothing. -/
theorem merge_self {tree : Selection} (h : Distinct tree) : tree.merge tree = tree :=
  merge_self_of h.1 fun entry hentry => union_self entry.2 (h.2 entry hentry).2

/-! ### Three of them -/

theorem keys_merge_assoc {tree other more : Selection} (hother : Keyed.Distinct other)
    (hmore : Keyed.Distinct more) :
    Keyed.keys ((tree.merge other).merge more) = Keyed.keys (tree.merge (other.merge more)) := by
  have hunion : Keyed.Distinct (other.merge more) := group_merge kept_distinct more hother
  rw [keys_merge hmore, keys_merge hother, keys_merge hunion, keys_merge hmore, List.filter_append,
    List.filter_filter, List.append_assoc]
  refine congrArg _ (congrArg _ (List.filter_congr fun name _ => ?_))
  -- new to the first two is new to the one and to the other
  by_cases hname : name ∈ Keyed.keys tree <;> simp [hname]

theorem merge_assoc_of {tree other more : Selection} (htree : Distinct tree) (hother : Distinct other)
    (hmore : Keyed.Distinct more)
    (hnodes : ∀ entry ∈ more, ∀ first second : Node, first.Has distinct → second.Has distinct →
      (first.union second).union entry.2 = first.union (second.union entry.2)) :
    (tree.merge other).merge more = tree.merge (other.merge more) := by
  have hunion : Keyed.Distinct (other.merge more) := group_merge kept_distinct more hother.1
  refine Keyed.eq_of_lookup (group_merge kept_distinct more (htree.merge hother).1)
    (keys_merge_assoc hother.1 hmore) fun key => ?_
  rw [lookup_merge hmore, lookup_merge hother.1, lookup_merge hunion, lookup_merge hmore]
  cases hlast : more.lookup key with
  | none => simp
  | some node =>
    cases hfirst : tree.lookup key with
    | none => simp
    | some first =>
      cases hsecond : other.lookup key with
      | none => simp
      | some second =>
        exact congrArg some (hnodes _ (Keyed.mem_of_lookup hlast) first second (htree.node hfirst)
          (hother.node hsecond))

/-- The union of nodes is associative: a marker takes the field from either side, and groups recurse. -/
theorem union_assoc (node : Node) : ∀ first second : Node, first.Has distinct → second.Has distinct →
    node.Has distinct → (first.union second).union node = first.union (second.union node) := by
  induction node using Node.ind with
  | marker n =>
    intro first second _ _ _
    cases first <;> cases second <;> simp [Node.union]
  | group entries ih =>
    intro first second hfirst hsecond hnode
    cases first with
    | marker n => cases second <;> simp [Node.union]
    | group tree =>
      cases second with
      | marker n => simp [Node.union]
      | group other =>
        obtain ⟨hentries, hfits⟩ := has_group_iff.1 hnode
        simp only [Node.union]
        refine congrArg Node.group (merge_assoc_of (has_group_iff.1 hfirst) (has_group_iff.1 hsecond)
          hentries fun entry hentry first second h h' => ?_)
        exact ih entry hentry first second h h' (hfits entry hentry).2

/-- The union is associative, with the order of the keys. -/
theorem merge_assoc {tree other more : Selection} (htree : Distinct tree) (hother : Distinct other)
    (hmore : Distinct more) : (tree.merge other).merge more = tree.merge (other.merge more) :=
  merge_assoc_of htree hother hmore.1 fun entry hentry first second h h' =>
    union_assoc entry.2 first second h h' (hmore.2 entry hentry).2

/-! ### The other way round -/

theorem permuted_refl_of {tree : Selection} (h : ∀ entry ∈ tree, entry.2.Permuted entry.2) :
    Permuted tree tree := by
  induction tree with
  | nil => exact .nil
  | cons entry rest ih =>
    rw [List.forall_mem_cons] at h
    exact .cons entry.1 h.1 (ih h.2)

theorem Node.Permuted.refl (node : Node) : node.Permuted node := by
  induction node using Node.ind with
  | marker n => exact .marker n
  | group entries ih => exact .group (permuted_refl_of ih)

theorem permuted_merge_comm_of {tree other : Selection} (htree : Keyed.Distinct tree)
    (hother : Keyed.Distinct other)
    (hnodes : ∀ key node second, (key, node) ∈ tree → (key, second) ∈ other →
      (node.union second).Permuted (second.union node)) :
    Permuted (tree.merge other) (other.merge tree) := by
  have hunion : Keyed.Distinct (tree.merge other) := group_merge kept_distinct other htree
  refine permuted_of_lookup hunion (group_merge kept_distinct tree hother) (fun key => ?_)
    fun ⟨key, node⟩ hentry => ?_
  · rw [keys_merge htree, keys_merge hother]
    simp only [List.mem_append, List.mem_filter, decide_eq_true_eq]
    tauto
  · have hnode := Keyed.lookup_of_mem hunion hentry
    rw [lookup_merge hother] at hnode
    rw [lookup_merge htree]
    cases hfirst : tree.lookup key with
    | none =>
      rw [hfirst, Option.merge_none_left] at hnode
      exact ⟨node, by rw [hnode, Option.merge_none_right], .refl node⟩
    | some first =>
      cases hsecond : other.lookup key with
      | none =>
        rw [hfirst, hsecond, Option.merge_none_right] at hnode
        exact ⟨node, by rw [hnode, Option.merge_none_left], .refl node⟩
      | some second =>
        rw [hfirst, hsecond] at hnode
        obtain rfl : first.union second = node := Option.some.inj hnode
        exact ⟨second.union first, rfl,
          hnodes key first second (Keyed.mem_of_lookup hfirst) (Keyed.mem_of_lookup hsecond)⟩

variable {m : Int32}

theorem permuted_union_comm (node : Node) : ∀ second : Node, node.Has distinct →
    second.Has distinct → node.Has (uniform m) → second.Has (uniform m) →
    (node.union second).Permuted (second.union node) := by
  induction node using Node.ind with
  | marker n =>
    intro second _ _ hmarker hmarker'
    obtain rfl : n = m := has_marker_iff.1 hmarker
    cases second with
    | marker n' =>
      obtain rfl : n' = n := has_marker_iff.1 hmarker'
      exact .refl _
    | group entries =>
      rw [Node.union, Node.union]
      exact .refl _
  | group entries ih =>
    intro second h h' hmarkers hmarkers'
    cases second with
    | marker n =>
      rw [Node.union, Node.union]
      exact .refl _
    | group others =>
      obtain ⟨hentries, hfits⟩ := has_group_iff.1 h
      obtain ⟨hothers, hfits'⟩ := has_group_iff.1 h'
      have hmarkers := (has_group_iff.1 hmarkers).2
      have hmarkers' := (has_group_iff.1 hmarkers').2
      rw [Node.union, Node.union]
      refine .group (permuted_merge_comm_of hentries hothers fun key node second hnode hsecond => ?_)
      exact ih _ hnode second (hfits _ hnode).2 (hfits' _ hsecond).2 (hmarkers _ hnode).2
        (hmarkers' _ hsecond).2

/-- With one marker throughout, only the order of the keys depends on which side comes first. -/
theorem permuted_merge_comm {tree other : Selection} (htree : Distinct tree) (hother : Distinct other)
    (hmarkers : Fits (uniform m) tree) (hmarkers' : Fits (uniform m) other) :
    Permuted (tree.merge other) (other.merge tree) :=
  permuted_merge_comm_of htree.1 hother.1 fun _ node second hnode hsecond =>
    permuted_union_comm node second (htree.2 _ hnode).2 (hother.2 _ hsecond).2 (hmarkers _ hnode).2
      (hmarkers' _ hsecond).2

/-! ### One text behind the other -/

/-- The node that an item merges in, whatever is there already. -/
def Item.node (m : Int32) : Item → Node
  | .field _ => .marker m
  | .group _ first rest => .group (addAll m rest (first.addTo m []))

/-- The key under which an item merges its node in. -/
def Item.name : Item → String
  | .field key => key
  | .group key _ _ => key

theorem addTo_eq (item : Item) (tree : Selection) :
    item.addTo m tree = mergeEntry tree item.name (item.node m) := by
  cases item <;> rw [Item.addTo] <;> rfl

mutual

theorem has_node (item : Item) : (item.node m).Has distinct := by
  cases item with
  | field key => exact has_marker_iff.2 trivial
  | group key first rest =>
    exact has_group_iff.2 (distinct_addAll rest (distinct_addTo first distinct_nil))

theorem distinct_addTo (item : Item) {tree : Selection} (h : Distinct tree) :
    Distinct (item.addTo m tree) := by
  rw [addTo_eq]
  exact h.merge ⟨kept_distinct.single _ _, List.forall_mem_singleton.2 ⟨trivial, has_node item⟩⟩

theorem distinct_addAll (items : List Item) {tree : Selection} (h : Distinct tree) :
    Distinct (addAll m items tree) := by
  cases items with
  | nil => rwa [addAll]
  | cons item rest =>
    rw [addAll]
    exact distinct_addAll rest (distinct_addTo item h)

end

/-- To merge items into a selection is to merge in what they write by themselves. -/
theorem addAll_eq_merge (items : List Item) {tree : Selection} (h : Distinct tree) :
    addAll m items tree = tree.merge (addAll m items []) := by
  induction items generalizing tree with
  | nil => rw [addAll, addAll, merge_nil]
  | cons item rest ih =>
    have hitem : Distinct (item.addTo m []) := distinct_addTo item distinct_nil
    have hsingle : tree.merge (item.addTo m []) = item.addTo m tree := by
      rw [addTo_eq, addTo_eq, mergeEntry_of_notMem (by simp [Keyed.keys])]
      rfl
    calc addAll m (item :: rest) tree
        = addAll m rest (item.addTo m tree) := by rw [addAll]
      _ = (item.addTo m tree).merge (addAll m rest []) := ih (distinct_addTo item h)
      _ = (tree.merge (item.addTo m [])).merge (addAll m rest []) := by rw [hsingle]
      _ = tree.merge ((item.addTo m []).merge (addAll m rest [])) :=
          merge_assoc h hitem (distinct_addAll rest distinct_nil)
      _ = tree.merge (addAll m rest (item.addTo m [])) := by rw [← ih hitem]
      _ = tree.merge (addAll m (item :: rest) []) := by rw [addAll]

theorem addAll_append (items more : List Item) (tree : Selection) :
    addAll m (items ++ more) tree = addAll m more (addAll m items tree) := by
  induction items generalizing tree with
  | nil => rw [List.nil_append, addAll]
  | cons item rest ih => rw [List.cons_append, addAll, addAll, ih]

theorem tokensOf_append (items more : List Item) :
    tokensOf (items ++ more) = tokensOf items ++ tokensOf more := by
  induction items with
  | nil => rw [List.nil_append, tokensOf, List.nil_append]
  | cons item rest ih => rw [List.cons_append, tokensOf, tokensOf, ih, List.append_assoc]

/-- Two texts with a blank between them spell the items of the one and then those of the other. -/
theorem Spells.append {s t : String} {items more : List Item} (hs : Spells s items)
    (ht : Spells t more) : Spells (s ++ " " ++ t) (items ++ more) := by
  rw [Spells, tokensOf_append]
  exact tokens_append_blank hs ht

theorem read_append {s t : String} {tree other : Selection} (hs : read m s = .ok tree)
    (ht : read m t = .ok other) : read m (s ++ " " ++ t) = .ok (tree.merge other) := by
  obtain ⟨items, hitems⟩ := exists_spells_of_read hs
  obtain ⟨more, hmore⟩ := exists_spells_of_read ht
  obtain rfl := Except.ok.inj ((read_of_spells hitems).symm.trans hs)
  obtain rfl := Except.ok.inj ((read_of_spells hmore).symm.trans ht)
  rw [read_of_spells (hitems.append hmore), addAll_append,
    addAll_eq_merge more (distinct_addAll items distinct_nil)]

/-- **Merging is a union, and reading is a homomorphism onto it.**  Where no key stands twice at any
level, the union is associative with the order of the keys; a union with itself changes nothing; the
empty selection is its unit on both sides; and with one marker throughout, only the order of the keys
depends on which side comes first.  All that is read from a text is of this kind, and what is read from
two texts with a blank between them is the union of what is read from each. -/
theorem merge_laws (m : Int32) :
    (∀ tree other more, Distinct tree → Distinct other → Distinct more →
        (tree.merge other).merge more = tree.merge (other.merge more)) ∧
      (∀ tree, Distinct tree → tree.merge tree = tree ∧ tree.merge [] = tree ∧ merge [] tree = tree) ∧
      (∀ tree other, Distinct tree → Distinct other → Fits (uniform m) tree → Fits (uniform m) other →
        Permuted (tree.merge other) (other.merge tree)) ∧
      (∀ s tree, readOrError m s = .ok tree → Distinct tree ∧ Fits (uniform m) tree) ∧
      ∀ s t tree other, readOrError m s = .ok tree → readOrError m t = .ok other →
        readOrError m (s ++ " " ++ t) = .ok (tree.merge other) := by
  refine ⟨fun tree other more => merge_assoc, fun tree h => ?_, fun tree other => permuted_merge_comm,
    fun s tree hs => ?_, fun s t tree other hs ht => ?_⟩
  · exact ⟨merge_self h, merge_nil tree, nil_merge h.1⟩
  · have hwritten := wellFormed_read (Outcome.mapError_eq_ok_iff.1 hs)
    exact ⟨hwritten.distinct, hwritten.2.mono (spelled_implies_uniform m)⟩
  · have hread := read_append (Outcome.mapError_eq_ok_iff.1 hs) (Outcome.mapError_eq_ok_iff.1 ht)
    exact Outcome.mapError_eq_ok_iff.2 hread

/-! ### A phone, a home and a friend -/

namespace PhoneAndHome

/-- `phone friend { name }` -/
def tree : Selection :=
  [("phone", .marker included), ("friend", .group [("name", .marker included)])]

/-- `friend { home.city name } phone { code }` -/
def other : Selection :=
  [("friend", .group [("home.city", .marker included), ("name", .marker included)]),
    ("phone", .group [("code", .marker included)])]

/-- `_id friend` -/
def more : Selection := [("_id", .marker included), ("friend", .marker included)]

theorem distinct_all : Distinct tree ∧ Distinct other ∧ Distinct more := by
  simp [Distinct, tree, other, more, Fits, has_group_iff, has_marker_iff, distinct, Keyed.Distinct,
    Keyed.keys]

theorem uniform_both : Fits (uniform included) tree ∧ Fits (uniform included) other := by
  simp [tree, other, Fits, has_group_iff, has_marker_iff, uniform]

theorem readOrError_tree : readOrError included "phone friend \x7b name \x7d" = .ok tree := by
  rfl

theorem readOrError_other :
    readOrError included "friend \x7b home.city name \x7d phone \x7b code \x7d" = .ok other := by
  rfl

/-- The phone and the friend stay where they were named first, each with the marker that takes it whole. -/
theorem phone_and_home :
    Distinct tree ∧ Distinct other ∧ Distinct more ∧ Fits (uniform included) tree ∧
      Fits (uniform included) other ∧
      (tree.merge other).merge more = tree.merge (other.merge more) ∧
      tree.merge (other.merge more) =
        [("phone", .marker included), ("friend", .marker included), ("_id", .marker included)] ∧
      tree.merge tree = tree ∧ merge [] tree = tree ∧
      Permuted (tree.merge other) (other.merge tree) ∧
      readOrError included
          ("phone friend \x7b name \x7d" ++ " " ++ "friend \x7b home.city name \x7d phone \x7b code \x7d") =
        .ok [("phone", .marker included),
          ("friend", .group [("name", .marker included), ("home.city", .marker included)])] := by
  obtain ⟨htree, hother, hmore⟩ := distinct_all
  obtain ⟨hmarkers, hmarkers'⟩ := uniform_both
  obtain ⟨hassoc, hself, hcomm, -, hread⟩ := merge_laws included
  exact ⟨htree, hother, hmore, hmarkers, hmarkers', hassoc _ _ _ htree hother hmore, rfl,
    (hself _ htree).1, (hself _ htree).2.2, hcomm _ _ htree hother hmarkers hmarkers',
    hread _ _ _ _ readOrError_tree readOrError_other⟩

end PhoneAndHome

end DocQuery.Selection
