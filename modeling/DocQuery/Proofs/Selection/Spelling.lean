import DocQuery.Proofs.Outcome
import DocQuery.Proofs.Selection.Leaves
import DocQuery.Selection.Reader

/-!
# Spellings of a selection

A selection is written as items, each a key or a key with a group behind it (`Item`); each text that
can be read spells some (`exists_spells_of_read`).  Instead of a group, its items can be written with
the key of the group and a point in front (`Respelled`).  Every spelling names the same paths
(`paths_eq_of_respelled`).  What is read from items has no leaf that is not named, and covers all that
is named (`mem_leaves_read`, `covers_read`); but which of the named paths are leaves depends on the
spelling, since a marker that is merged with a group takes its place.
-/

namespace DocQuery.Selection

/-- What stands between two blanks of a selection: a key, or a key with a group of at least one item. -/
inductive Item where
  | field (key : String)
  | group (key : String) (first : Item) (rest : List Item)

mutual

/-- The tokens of an item. -/
def Item.tokens : Item → List Token
  | .field key => [.key key]
  | .group key first rest =>
    .key key :: .openGroup :: (first.tokens ++ (tokensOf rest ++ [.closeGroup]))

def tokensOf : List Item → List Token
  | [] => []
  | item :: rest => item.tokens ++ tokensOf rest

end

mutual

/-- The paths that an item names. -/
def Item.paths : Item → List Path
  | .field key => [Path.ofText key]
  | .group key first rest => (first.paths ++ pathsOf rest).map (Path.ofText key ++ ·)

def pathsOf : List Item → List Path
  | [] => []
  | item :: rest => item.paths ++ pathsOf rest

end

/-- A text that spells items. -/
def Spells (s : String) (items : List Item) : Prop := Selection.tokens s = .ok (tokensOf items)

/-! ### Dotted keys instead of groups -/

/-- An item behind a key: with the key and a point in front. -/
def Item.behind (key : String) : Item → Item
  | .field name => .field (key ++ "." ++ name)
  | .group name first rest => .group (key ++ "." ++ name) first rest

/-- Items that differ only in the groups whose key is written in front of their items instead. -/
inductive Respelled : List Item → List Item → Prop
  | dotted (key : String) (first : Item) (rest : List Item) :
    Respelled [.group key first rest] ((first :: rest).map (Item.behind key))
  | inside (key : String) {first other : Item} {rest others : List Item}
    (h : Respelled (first :: rest) (other :: others)) :
    Respelled [.group key first rest] [.group key other others]
  | append {items others more others' : List Item} (h : Respelled items others)
    (h' : Respelled more others') : Respelled (items ++ more) (others ++ others')
  | refl (items : List Item) : Respelled items items
  | symm {items others : List Item} (h : Respelled items others) : Respelled others items
  | trans {items others more : List Item} (h : Respelled items others) (h' : Respelled others more) :
    Respelled items more

theorem paths_behind (key : String) (item : Item) :
    (item.behind key).paths = item.paths.map (Path.ofText key ++ ·) := by
  cases item with
  | field name => simp [Item.behind, Item.paths, Path.ofText_append]
  | group name first rest =>
    simp [Item.behind, Item.paths, Path.ofText_append, Function.comp_def]

theorem pathsOf_append (items more : List Item) :
    pathsOf (items ++ more) = pathsOf items ++ pathsOf more := by
  induction items with
  | nil => simp [pathsOf]
  | cons item rest ih => simp [pathsOf, ih]

theorem pathsOf_map_behind (key : String) (items : List Item) :
    pathsOf (items.map (Item.behind key)) = (pathsOf items).map (Path.ofText key ++ ·) := by
  induction items with
  | nil => simp [pathsOf]
  | cons item rest ih => simp [pathsOf, paths_behind, ih]

theorem pathsOf_group (key : String) (first : Item) (rest : List Item) :
    pathsOf [.group key first rest] = (pathsOf (first :: rest)).map (Path.ofText key ++ ·) := by
  simp [pathsOf, Item.paths]

/-- Each spelling names the same paths, in the same order. -/
theorem paths_eq_of_respelled {items others : List Item} (h : Respelled items others) :
    pathsOf items = pathsOf others := by
  induction h with
  | dotted key first rest => rw [pathsOf_group, pathsOf_map_behind]
  | inside key _ ih => rw [pathsOf_group, pathsOf_group, ih]
  | append _ _ ih ih' => rw [pathsOf_append, pathsOf_append, ih, ih']
  | refl items => rfl
  | symm _ ih => exact ih.symm
  | trans _ _ ih ih' => exact ih.trans ih'

/-! ### What is read -/

variable {m : Int32}

mutual

/-- A selection with one more item merged in. -/
def Item.addTo (m : Int32) : Item → Selection → Selection
  | .field key, tree => mergeEntry tree key (.marker m)
  | .group key first rest, tree => mergeEntry tree key (.group (addAll m rest (first.addTo m [])))

def addAll (m : Int32) : List Item → Selection → Selection
  | [], tree => tree
  | item :: rest, tree => addAll m rest (item.addTo m tree)

end

theorem mergeEntry_ne_nil (tree : Selection) (key : String) (node : Node) :
    mergeEntry tree key node ≠ [] := by
  rw [mergeEntry_eq]
  exact List.ne_nil_of_mem (Keyed.self_mem_adjust key _ tree)

theorem addAll_ne_nil (items : List Item) {tree : Selection} (h : tree ≠ []) :
    addAll m items tree ≠ [] := by
  induction items generalizing tree with
  | nil => rwa [addAll]
  | cons item rest ih =>
    rw [addAll]
    refine ih ?_
    cases item <;> (rw [Item.addTo]; exact mergeEntry_ne_nil _ _ _)

theorem head?_tokensOf_append (items : List Item) {more : List Token}
    (hmore : more.head? ≠ some .openGroup) : (tokensOf items ++ more).head? ≠ some .openGroup := by
  cases items with
  | nil => simpa [tokensOf] using hmore
  | cons item rest => cases item <;> simp [tokensOf, Item.tokens]

theorem build_key {stack : List (Selection × String)} {tree : Selection} {key : String}
    {more : List Token} (hmore : more.head? ≠ some .openGroup) :
    build m stack tree (.key key :: more) =
      build m stack (mergeEntry tree key (.marker m)) more := by
  rw [build]
  rintro rest rfl
  exact hmore rfl

mutual

/-- The tokens of an item merge it into the tree that is being read. -/
theorem build_item (item : Item) (stack : List (Selection × String)) (tree : Selection)
    {more : List Token} (hmore : more.head? ≠ some .openGroup) :
    build m stack tree (item.tokens ++ more) = build m stack (item.addTo m tree) more := by
  cases item with
  | field key =>
    rw [Item.tokens, Item.addTo]
    exact build_key hmore
  | group key first rest =>
    have hclose : ((Token.closeGroup :: more).head?) ≠ some .openGroup := by simp
    have hfirst : first.addTo m [] ≠ [] := by
      cases first <;> (rw [Item.addTo]; exact mergeEntry_ne_nil _ _ _)
    have hne : (addAll m rest (first.addTo m [])).isEmpty = false := by
      rw [List.isEmpty_eq_false_iff]
      exact addAll_ne_nil rest hfirst
    have htokens : (Item.group key first rest).tokens ++ more =
        .key key :: .openGroup :: (first.tokens ++ (tokensOf rest ++ (.closeGroup :: more))) := by
      rw [Item.tokens]
      simp
    rw [htokens, build, build_item first _ _ (head?_tokensOf_append rest hclose),
      build_items rest _ _ hclose, build, hne, Item.addTo]
    rfl

theorem build_items (items : List Item) (stack : List (Selection × String)) (tree : Selection)
    {more : List Token} (hmore : more.head? ≠ some .openGroup) :
    build m stack tree (tokensOf items ++ more) = build m stack (addAll m items tree) more := by
  cases items with
  | nil => rw [tokensOf, addAll, List.nil_append]
  | cons item rest =>
    rw [tokensOf, addAll, List.append_assoc,
      build_item item stack tree (head?_tokensOf_append rest hmore), build_items rest _ _ hmore]

end

/-- A text that spells items can be read: its items are merged one after the other. -/
theorem read_of_spells {s : String} {items : List Item} (h : Spells s items) :
    read m s = .ok (addAll m items []) := by
  have hbuild : build m [] [] (tokensOf items ++ []) = build m [] (addAll m items []) [] :=
    build_items items [] [] (by simp)
  rw [List.append_nil] at hbuild
  rw [read, h]
  exact hbuild

/-- The tokens of items, up to the end or up to the one that closes the group being read. -/
inductive Consists (m : Int32) (out : Selection) :
    List (Selection × String) → List Item → List Token → Prop
  | all (items : List Item) : Consists m out [] items (tokensOf items)
  | upTo {top : Selection × String} {stack : List (Selection × String)} {tree : Selection}
    (items : List Item) {rest : List Token} (h : build m stack tree rest = .ok out) :
    Consists m out (top :: stack) items (tokensOf items ++ .closeGroup :: rest)

theorem Consists.cons {out : Selection} {stack : List (Selection × String)} {items : List Item}
    {more : List Token} (h : Consists m out stack items more) (item : Item) :
    Consists m out stack (item :: items) (item.tokens ++ more) := by
  cases h with
  | all items =>
    rw [← tokensOf]
    exact .all (item :: items)
  | upTo items h =>
    rw [← List.append_assoc, ← tokensOf]
    exact .upTo (item :: items) h

/-- Tokens that build a tree are those of items, and a group of theirs is not empty. -/
theorem exists_consists_of_build {out : Selection} (tokens : List Token) :
    ∀ {stack : List (Selection × String)} {tree : Selection},
      build m stack tree tokens = .ok out →
        ∃ items, Consists m out stack items tokens ∧ (stack ≠ [] → tree = [] → items ≠ []) := by
  induction hlength : tokens.length using Nat.strongRecOn generalizing tokens with
  | _ length ih =>
    subst hlength
    intro stack tree h
    match tokens with
    | [] =>
      rw [build] at h
      cases stack with
      | nil => exact ⟨[], .all [], by simp⟩
      | cons top stack => cases h
    | .closeGroup :: rest =>
      cases stack with
      | nil => cases h
      | cons top stack =>
        rw [build] at h
        split at h
        · cases h
        · next hne => exact ⟨[], .upTo [] h, fun _ hnil => absurd (by simp [hnil]) hne⟩
    | .openGroup :: rest => cases h
    | .key name :: .openGroup :: rest =>
      rw [build] at h
      -- first the items of the group, then what stands behind it
      obtain ⟨items, hitems, hne⟩ := ih rest.length (by simp only [List.length_cons]; omega) rest rfl h
      obtain ⟨first, others, rfl⟩ := List.exists_cons_of_ne_nil (hne (by simp) rfl)
      cases hitems with
      | upTo _ hrest =>
        obtain ⟨more, hmore, -⟩ := ih _ (by simp; omega) _ rfl hrest
        refine ⟨.group name first others :: more, ?_, by simp⟩
        have hgroup := hmore.cons (.group name first others)
        rw [Item.tokens] at hgroup
        simpa [tokensOf] using hgroup
    | .key name :: [] =>
      rw [build_key (by simp)] at h
      obtain ⟨items, hitems, -⟩ := ih 0 (by simp) [] rfl h
      exact ⟨.field name :: items, hitems.cons (.field name), by simp⟩
    | .key name :: .closeGroup :: rest | .key name :: .key _ :: rest =>
      rw [build_key (by simp)] at h
      obtain ⟨items, hitems, -⟩ := ih _ (by simp) _ rfl h
      exact ⟨.field name :: items, hitems.cons (.field name), by simp⟩

/-- Each text that can be read spells items. -/
theorem exists_spells_of_read {s : String} {tree : Selection} (h : read m s = .ok tree) :
    ∃ items, Spells s items := by
  obtain ⟨list, htokens, hbuild⟩ := Outcome.bind_eq_ok_iff.1 h
  obtain ⟨items, hitems, -⟩ := exists_consists_of_build list hbuild
  cases hitems with
  | all items => exact ⟨items, htokens⟩

mutual

theorem mem_leaves_addTo (item : Item) (tree : Selection) {leaf : Path}
    (h : leaf ∈ leaves (item.addTo m tree)) : leaf ∈ leaves tree ∨ leaf ∈ item.paths := by
  cases item with
  | field key =>
    rw [Item.addTo] at h
    refine (mem_leaves_mergeEntry (mem_leaves_union _) h).imp_right ?_
    rintro ⟨rest, hrest, rfl⟩
    rw [Node.leaves, List.mem_singleton] at hrest
    simp [Item.paths, hrest]
  | group key first rest =>
    rw [Item.addTo] at h
    refine (mem_leaves_mergeEntry (mem_leaves_union _) h).imp_right ?_
    rintro ⟨below, hbelow, rfl⟩
    rw [leaves_group] at hbelow
    rw [Item.paths]
    refine List.mem_map_of_mem (List.mem_append.2 ?_)
    refine (mem_leaves_addAll rest _ hbelow).imp_left fun hfirst => ?_
    exact (mem_leaves_addTo first [] hfirst).resolve_left (by simp [leaves])

theorem mem_leaves_addAll (items : List Item) (tree : Selection) {leaf : Path}
    (h : leaf ∈ leaves (addAll m items tree)) : leaf ∈ leaves tree ∨ leaf ∈ pathsOf items := by
  cases items with
  | nil =>
    rw [addAll] at h
    exact .inl h
  | cons item rest =>
    rw [addAll] at h
    rw [pathsOf, List.mem_append, ← or_assoc]
    exact (mem_leaves_addAll rest _ h).imp_left (mem_leaves_addTo item tree)

end

mutual

theorem covers_addTo (item : Item) (tree : Selection) {path : Path}
    (h : Covers tree path ∨ ∃ named ∈ item.paths, named <+: path) :
    Covers (item.addTo m tree) path := by
  cases item with
  | field key =>
    rw [Item.addTo]
    refine covers_mergeEntry (covers_union _) (h.imp_right ?_)
    rintro ⟨named, hnamed, rest, rfl⟩
    rw [Item.paths, List.mem_singleton] at hnamed
    exact ⟨rest, covers_marker m rest, by rw [hnamed]⟩
  | group key first rest =>
    rw [Item.addTo]
    refine covers_mergeEntry (covers_union _) (h.imp_right ?_)
    rintro ⟨named, hnamed, tail, rfl⟩
    rw [Item.paths] at hnamed
    obtain ⟨below, hbelow, rfl⟩ := List.mem_map.1 hnamed
    refine ⟨below ++ tail, ?_, by simp⟩
    rw [Node.Covers, leaves_group]
    refine covers_addAll rest _ ?_
    rcases List.mem_append.1 hbelow with hfirst | hrest
    · exact .inl (covers_addTo first [] (.inr ⟨below, hfirst, List.prefix_append _ _⟩))
    · exact .inr ⟨below, hrest, List.prefix_append _ _⟩

theorem covers_addAll (items : List Item) (tree : Selection) {path : Path}
    (h : Covers tree path ∨ ∃ named ∈ pathsOf items, named <+: path) :
    Covers (addAll m items tree) path := by
  cases items with
  | nil =>
    rw [addAll]
    exact h.resolve_right (by simp [pathsOf])
  | cons item rest =>
    rw [addAll]
    refine covers_addAll rest _ ?_
    rcases h with h | ⟨named, hnamed, hbegin⟩
    · exact .inl (covers_addTo item tree (.inl h))
    · rw [pathsOf, List.mem_append] at hnamed
      rcases hnamed with hfirst | hrest
      · exact .inl (covers_addTo item tree (.inr ⟨named, hfirst, hbegin⟩))
      · exact .inr ⟨named, hrest, hbegin⟩

end

section Read

variable {s : String} {items : List Item} {tree : Selection}

/-- Each leaf of what is read is named by an item. -/
theorem mem_leaves_read (hs : Spells s items) (h : read m s = .ok tree) {leaf : Path}
    (hleaf : leaf ∈ leaves tree) : leaf ∈ pathsOf items := by
  obtain rfl := Except.ok.inj ((read_of_spells hs).symm.trans h)
  exact (mem_leaves_addAll items [] hleaf).resolve_left (by simp [leaves])

/-- What is read covers each path that an item names. -/
theorem covers_read (hs : Spells s items) (h : read m s = .ok tree) {path : Path}
    (hpath : path ∈ pathsOf items) : Covers tree path := by
  obtain rfl := Except.ok.inj ((read_of_spells hs).symm.trans h)
  exact covers_addAll items [] (.inr ⟨path, hpath, path.prefix_refl⟩)

end Read

end DocQuery.Selection
