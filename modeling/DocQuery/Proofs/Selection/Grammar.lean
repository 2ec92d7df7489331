import DocQuery.Proofs.Selection.Spelling
import DocQuery.Proofs.Selection.Written
import DocQuery.Query.Compile

/-!
# The grammar of selections

Which texts can be read is a matter of their characters, of their keys and of how their braces stand
(`Grammatical`), and all three can be seen without building a tree.  Building one takes a stack of open
groups; at every point it comes to a good end if and only if the tokens that are left close as many
groups as are open (`Closes`, `exists_build_iff`).
-/

namespace DocQuery.Selection

/-- Each group is opened behind a key, is not closed at once, and is closed in the end. -/
structure Braced (list : List Token) : Prop where
  opened_behind_key : list.head? ≠ some .openGroup ∧
    list.IsChain fun before token => token = .openGroup → ∃ name, before = .key name
  not_closed_at_once : list.IsChain fun before token => before = .openGroup → token ≠ .closeGroup
  closed_le_opened : ∀ front, front <+: list → front.count .closeGroup ≤ front.count .openGroup
  opened_eq_closed : list.count .openGroup = list.count .closeGroup

/-- A text that keeps to the grammar of selections. -/
structure Grammatical (s : String) : Prop where
  characters : ∀ c ∈ s.toList, MayStand c
  keys : PartsNamed s.toList
  groups : Braced (tokensIn s.toList)

/-! ### From tokens to groups -/

/-- Where `depth` groups are open, tokens never close more of them than are open, and close all in the
end. -/
structure Balanced (depth : Nat) (list : List Token) : Prop where
  closed_le_opened : ∀ front, front <+: list →
    front.count .closeGroup ≤ depth + front.count .openGroup
  opened_eq_closed : depth + list.count .openGroup = list.count .closeGroup

/-- What tokens have to be like where `depth` groups are open, of which the innermost one may still be
empty. -/
structure Closes (depth : Nat) (empty : Prop) (list : List Token) : Prop where
  first_not_open : list.head? ≠ some .openGroup
  first_not_close : 0 < depth → empty → list.head? ≠ some .closeGroup
  opened_behind_key : list.IsChain fun before token => token = .openGroup → ∃ name, before = .key name
  not_closed_at_once : list.IsChain fun before token => before = .openGroup → token ≠ .closeGroup
  balanced : Balanced depth list

theorem closes_zero_iff {empty : Prop} {list : List Token} : Closes 0 empty list ↔ Braced list := by
  constructor
  · intro h
    exact ⟨⟨h.first_not_open, h.opened_behind_key⟩, h.not_closed_at_once,
      by simpa using h.balanced.closed_le_opened, by simpa using h.balanced.opened_eq_closed⟩
  · intro h
    exact ⟨h.opened_behind_key.1, by simp, h.opened_behind_key.2, h.not_closed_at_once,
      by simpa using h.closed_le_opened, by simpa using h.opened_eq_closed⟩

theorem forall_prefix_cons_iff {α : Type} {P : List α → Prop} {a : α} {list : List α} :
    (∀ front, front <+: a :: list → P front) ↔ P [] ∧ ∀ front, front <+: list → P (a :: front) := by
  constructor
  · exact fun h => ⟨h [] List.nil_prefix, fun front hfront => h _ ((List.prefix_cons_inj a).2 hfront)⟩
  · rintro ⟨hnil, hcons⟩ front hfront
    rcases List.prefix_cons_iff.1 hfront with rfl | ⟨tail, rfl, htail⟩
    · exact hnil
    · exact hcons tail htail

section Steps

variable {depth next : Nat} {empty : Prop} {name : String} {token : Token} {rest : List Token}

/-- Behind one token as many groups are open as before, and those that it opens, without those that it
closes. -/
theorem balanced_cons_iff
    (hnext : depth + [token].count .openGroup = next + [token].count .closeGroup) :
    Balanced depth (token :: rest) ↔ Balanced next rest := by
  have hcount : ∀ (list : List Token) (other : Token),
      (token :: list).count other = [token].count other + list.count other := by
    intro list other
    rw [← List.singleton_append, List.count_append]
  constructor
  · rintro ⟨hle, heq⟩
    rw [hcount rest, hcount rest] at heq
    refine ⟨fun front hfront => ?_, by omega⟩
    have hfront := (forall_prefix_cons_iff.1 hle).2 front hfront
    rw [hcount front, hcount front] at hfront
    omega
  · rintro ⟨hle, heq⟩
    refine ⟨forall_prefix_cons_iff.2 ⟨by simp, fun front hfront => ?_⟩, ?_⟩
    · have hfront := hle front hfront
      rw [hcount front, hcount front]
      omega
    · rw [hcount rest, hcount rest]
      omega

theorem closes_nil_iff : Closes depth empty [] ↔ depth = 0 := by
  constructor
  · intro h
    simpa using h.balanced.opened_eq_closed
  · rintro rfl
    exact ⟨by simp, by simp, .nil, .nil, by simp, by simp⟩

theorem not_closes_open : ¬Closes depth empty (.openGroup :: rest) := fun h => h.first_not_open rfl

theorem not_closes_zero_close : ¬Closes 0 empty (.closeGroup :: rest) := fun h => by
  have hfront := h.balanced.closed_le_opened [.closeGroup] (by simp)
  simp at hfront

/-- A group may be closed if it is not empty, and something stands in the one around it then. -/
theorem closes_close_iff : Closes (depth + 1) empty (.closeGroup :: rest) ↔
    ¬empty ∧ Closes depth False rest := by
  have hbalanced : Balanced (depth + 1) (.closeGroup :: rest) ↔ Balanced depth rest :=
    balanced_cons_iff (by simp)
  constructor
  · rintro ⟨_, hclose, hopened, hclosed, hdepth⟩
    have hopened := List.isChain_cons.1 hopened
    refine ⟨fun hempty => hclose (by omega) hempty rfl, fun hhead => ?_, by simp, hopened.2,
      (List.isChain_cons.1 hclosed).2, hbalanced.1 hdepth⟩
    obtain ⟨name, hname⟩ := hopened.1 _ hhead rfl
    cases hname
  · rintro ⟨hempty, hopen, -, hopened, hclosed, hdepth⟩
    refine ⟨by simp, fun _ h => absurd h hempty, List.isChain_cons.2 ⟨?_, hopened⟩,
      List.isChain_cons.2 ⟨by simp, hclosed⟩, hbalanced.2 hdepth⟩
    rintro token htoken rfl
    exact absurd htoken hopen

/-- A key with a group opens one more group, which is still empty. -/
theorem closes_key_open_iff : Closes depth empty (.key name :: .openGroup :: rest) ↔
    Closes (depth + 1) True rest := by
  have hkey : Balanced depth (.key name :: .openGroup :: rest) ↔ Balanced depth (.openGroup :: rest) :=
    balanced_cons_iff (by simp)
  have hbalanced : Balanced depth (.openGroup :: rest) ↔ Balanced (depth + 1) rest :=
    balanced_cons_iff (by simp)
  constructor
  · rintro ⟨_, _, hopened, hclosed, hdepth⟩
    have hopened := List.isChain_cons.1 (List.isChain_cons.1 hopened).2
    have hclosed := List.isChain_cons.1 (List.isChain_cons.1 hclosed).2
    refine ⟨fun hhead => ?_, fun _ _ hhead => hclosed.1 _ hhead rfl rfl, hopened.2, hclosed.2,
      hbalanced.1 (hkey.1 hdepth)⟩
    obtain ⟨name, hname⟩ := hopened.1 _ hhead rfl
    cases hname
  · rintro ⟨hopen, hclose, hopened, hclosed, hdepth⟩
    refine ⟨by simp, by simp, ?_, ?_, hkey.2 (hbalanced.2 hdepth)⟩
    · refine List.isChain_cons_cons.2 ⟨fun _ => ⟨name, rfl⟩, List.isChain_cons.2 ⟨?_, hopened⟩⟩
      rintro token htoken rfl
      exact absurd htoken hopen
    · refine List.isChain_cons_cons.2 ⟨by simp, List.isChain_cons.2 ⟨?_, hclosed⟩⟩
      rintro token htoken - rfl
      exact hclose (by omega) trivial htoken

/-- Behind a key without a group the innermost group is not empty. -/
theorem closes_key_iff (hrest : rest.head? ≠ some .openGroup) :
    Closes depth empty (.key name :: rest) ↔ Closes depth False rest := by
  have hbalanced : Balanced depth (.key name :: rest) ↔ Balanced depth rest :=
    balanced_cons_iff (by simp)
  constructor
  · rintro ⟨_, _, hopened, hclosed, hdepth⟩
    exact ⟨hrest, by simp, (List.isChain_cons.1 hopened).2, (List.isChain_cons.1 hclosed).2,
      hbalanced.1 hdepth⟩
  · rintro ⟨-, -, hopened, hclosed, hdepth⟩
    exact ⟨by simp, by simp, List.isChain_cons.2 ⟨fun _ _ _ => ⟨name, rfl⟩, hopened⟩,
      List.isChain_cons.2 ⟨by simp, hclosed⟩, hbalanced.2 hdepth⟩

end Steps

theorem closes_congr {depth : Nat} {empty other : Prop} {list : List Token} (h : empty ↔ other) :
    Closes depth empty list ↔ Closes depth other list := by
  rw [propext h]

/-- Tokens build a tree if they close all groups that are open. -/
theorem exists_build_iff {m : Int32} {stack : List (Selection × String)} {tree : Selection}
    {list : List Token} :
    (∃ out, build m stack tree list = .ok out) ↔ Closes stack.length (tree = []) list := by
  fun_induction build m stack tree list with
  | case1 stack tree hempty =>
    have hstack : stack.length = 0 := by simpa using hempty
    simp [closes_nil_iff, hstack]
  | case2 stack tree hempty =>
    have hstack : stack.length ≠ 0 := by simpa using hempty
    simp [closes_nil_iff, hstack]
  | case3 tree rest => simp [not_closes_zero_close]
  | case4 tree rest outer key stack hempty =>
    have htree : tree = [] := by simpa using hempty
    simp [closes_close_iff, htree]
  | case5 tree rest outer key stack hempty ih =>
    have htree : tree ≠ [] := by simpa using hempty
    have hentry : mergeEntry outer key (.group tree) = [] ↔ False :=
      iff_false_intro (mergeEntry_ne_nil _ _ _)
    rw [ih, List.length_cons, closes_close_iff, and_iff_right htree, closes_congr hentry]
  | case6 stack tree rest => simp [not_closes_open]
  | case7 stack tree name rest ih =>
    rw [ih, closes_key_open_iff, List.length_cons, closes_congr (iff_true_intro rfl)]
  | case8 stack tree name rest hopen ih =>
    have hentry : mergeEntry tree name (.marker m) = [] ↔ False :=
      iff_false_intro (mergeEntry_ne_nil _ _ _)
    have hrest : rest.head? ≠ some .openGroup := by
      intro hhead
      obtain ⟨tail, htail⟩ := List.head?_eq_some_iff.1 hhead
      exact hopen tail htail
    rw [ih, closes_key_iff hrest, closes_congr hentry]

/-! ### Texts that can be read -/

theorem exists_read_iff {m : Int32} {s : String} :
    (∃ tree, read m s = .ok tree) ↔ Grammatical s := by
  have hread : ∀ tree, read m s = .ok tree ↔
      ∃ list, tokens s = .ok list ∧ build m [] [] list = .ok tree := fun _ => Outcome.bind_eq_ok_iff
  simp only [hread, tokens_eq_ok_iff]
  constructor
  · rintro ⟨tree, _, ⟨hcharacters, hkeys, rfl⟩, hbuild⟩
    exact ⟨hcharacters, hkeys, closes_zero_iff.1 (exists_build_iff.1 ⟨tree, hbuild⟩)⟩
  · rintro ⟨hcharacters, hkeys, hgroups⟩
    obtain ⟨tree, hbuild⟩ : ∃ tree, build m [] [] (tokensIn s.toList) = .ok tree :=
      exists_build_iff.2 (closes_zero_iff.2 hgroups)
    exact ⟨tree, _, ⟨hcharacters, hkeys, rfl⟩, hbuild⟩

/-- **A text can be read if and only if it keeps to the grammar.**  Any other one is refused as a
malformed selection, and the error names the text. -/
theorem readOrError_iff_grammatical (m : Int32) (s : String) :
    ((∃ tree, readOrError m s = .ok tree) ↔ Grammatical s) ∧
      (¬Grammatical s ↔ ∃ fault, readOrError m s = .error (.malformedSelection s fault)) := by
  rw [← exists_read_iff (m := m), readOrError]
  cases read m s with
  | ok tree => simp [Except.mapError]
  | error fault => simp [Except.mapError]

end DocQuery.Selection
