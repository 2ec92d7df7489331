import DocQuery.Proofs.Selection.Spelling
import DocQuery.Proofs.Selection.Written
import DocQuery.Query.Compile

/-!
# Printing selections

A selection is printed with blanks between its entries, and with each group in braces behind its key
(`print`).  The text spells one item for each entry (`spells_print`), and in a well-formed selection
each of them only adds an entry behind the others (`addTo_item`).  So reading undoes printing, and it
is onto: what is read is well formed and could have been read from what is printed of it.
-/

namespace DocQuery.Selection

mutual

/-- An entry as text: its key, and behind it the entries of its group in braces. -/
def Node.print (key : String) : Node → String
  | .marker _ => key
  | .group entries => " ".intercalate ([key, "\x7b"] ++ printEach entries ++ ["\x7d"])

def printEach : List (String × Node) → List String
  | [] => []
  | (key, node) :: rest => node.print key :: printEach rest

end

/-- A selection as text. -/
def print (tree : Selection) : String := " ".intercalate (printEach tree)

mutual

/-- The item that an entry is printed as.  (An empty group has none, and counts as its key.) -/
def Node.item (key : String) : Node → Item
  | .marker _ => .field key
  | .group entries =>
    match items entries with
    | [] => .field key
    | first :: rest => .group key first rest

def items : List (String × Node) → List Item
  | [] => []
  | (key, node) :: rest => node.item key :: items rest

end

theorem exists_item_group {entries : Selection} (hne : entries ≠ []) :
    ∃ first rest, items entries = first :: rest ∧
      ∀ key, (Node.group entries).item key = .group key first rest := by
  obtain ⟨⟨name, node⟩, others, rfl⟩ := List.exists_cons_of_ne_nil hne
  refine ⟨node.item name, items others, by rw [items], fun key => ?_⟩
  rw [Node.item, items]

/-! ### Tokens of what is printed -/

theorem tokens_append_blank {s t : String} {first rest : List Token} (hs : tokens s = .ok first)
    (ht : tokens t = .ok rest) : tokens (s ++ " " ++ t) = .ok (first ++ rest) := by
  have hblank : isKeyChar ' ' = false := by decide
  have hmay : MayStand ' ' := mayStand_iff.2 (.inr (.inl (by decide)))
  have hpiece : Token.ofPiece? [' '] = none := by decide
  have hcut : (s ++ " " ++ t).toList = s.toList ++ ' ' :: t.toList := by simp
  obtain ⟨hchars, hparts, rfl⟩ := tokens_eq_ok_iff.1 hs
  obtain ⟨hchars', hparts', rfl⟩ := tokens_eq_ok_iff.1 ht
  rw [tokens_eq_ok_iff, hcut, List.forall_mem_append, List.forall_mem_cons,
    partsNamed_append_cons hblank, tokensIn_append_cons hblank, hpiece]
  exact ⟨⟨hchars, hmay, hchars'⟩, ⟨hparts, hparts'⟩, by simp⟩

/-- Texts with blanks between them have the tokens of one after the other. -/
theorem tokens_intercalate_cons {s : String} {texts : List String} {first rest : List Token}
    (hs : tokens s = .ok first) (htexts : tokens (" ".intercalate texts) = .ok rest) :
    tokens (" ".intercalate (s :: texts)) = .ok (first ++ rest) := by
  cases texts with
  | nil =>
    have hempty : tokens (" ".intercalate []) = .ok [] := rfl
    obtain rfl := Except.ok.inj (hempty.symm.trans htexts)
    simpa using hs
  | cons t texts =>
    rw [String.intercalate_cons_cons]
    exact tokens_append_blank hs htexts

theorem tokens_of_isKey {key : String} (h : IsKey key) : tokens key = .ok [.key key] := by
  obtain ⟨hchars, hparts⟩ := h
  have hne : key.toList ≠ [] := by
    intro hnil
    have hempty : "" ∈ Path.ofText key := by
      rw [Path.ofText, hnil]
      exact List.mem_singleton_self ""
    exact hparts "" hempty rfl
  have hnamed : PartsNamed key.toList := by
    rw [partsNamed_of_run hchars hne, ← contains_empty_ofText_iff, String.ofList_toList,
      List.contains_iff_mem]
    exact fun hmem => hparts "" hmem rfl
  rw [tokens_eq_ok_iff, tokensIn_of_run hchars hne, String.ofList_toList]
  exact ⟨fun c hc => mayStand_iff.2 (.inl (hchars c hc)), hnamed, rfl⟩

theorem tokens_printEach {entries : Selection}
    (hnodes : ∀ entry ∈ entries, tokens (entry.2.print entry.1) = .ok (entry.2.item entry.1).tokens)
    {texts : List String} {more : List Token} (htexts : tokens (" ".intercalate texts) = .ok more) :
    tokens (" ".intercalate (printEach entries ++ texts)) = .ok (tokensOf (items entries) ++ more) := by
  induction entries with
  | nil => simpa [printEach, items, tokensOf] using htexts
  | cons entry rest ih =>
    rw [List.forall_mem_cons] at hnodes
    rw [printEach, items, tokensOf, List.cons_append, List.append_assoc]
    exact tokens_intercalate_cons hnodes.1 (ih hnodes.2)

variable {m : Int32}

theorem tokens_print (node : Node) : ∀ key, IsKey key → node.Has (spelled m) →
    tokens (node.print key) = .ok (node.item key).tokens := by
  induction node using Node.ind with
  | marker n =>
    intro key hkey _
    rw [Node.print, Node.item, Item.tokens]
    exact tokens_of_isKey hkey
  | group entries ih =>
    intro key hkey h
    obtain ⟨⟨hne, -⟩, hfits⟩ := has_group_iff.1 h
    obtain ⟨first, rest, hitems, hitem⟩ := exists_item_group hne
    have hopen : tokens "\x7b" = .ok [.openGroup] := by decide
    have hclose : tokens (" ".intercalate ["\x7d"]) = .ok [.closeGroup] := by decide
    have hentries := tokens_printEach
      (fun entry hentry => ih entry hentry entry.1 (hfits entry hentry).1 (hfits entry hentry).2) hclose
    have htokens := tokens_intercalate_cons (tokens_of_isKey hkey) (tokens_intercalate_cons hopen hentries)
    rw [Node.print, hitem, Item.tokens]
    rw [hitems, tokensOf] at htokens
    simpa using htokens

/-- What is printed of a selection spells its entries. -/
theorem spells_print {tree : Selection} (h : Fits (spelled m) tree) :
    Spells (print tree) (items tree) := by
  have hempty : tokens (" ".intercalate []) = .ok [] := rfl
  have htokens := tokens_printEach
    (fun entry hentry => tokens_print entry.2 entry.1 (h entry hentry).1 (h entry hentry).2) hempty
  rwa [List.append_nil, List.append_nil] at htokens

/-! ### Reading it again -/

theorem addAll_items_of {entries : Selection}
    (hnodes : ∀ entry ∈ entries, ∀ tree : Selection, entry.1 ∉ Keyed.keys tree →
      (entry.2.item entry.1).addTo m tree = tree ++ [entry])
    {tree : Selection} (h : Keyed.Distinct (tree ++ entries)) :
    addAll m (items entries) tree = tree ++ entries := by
  induction entries generalizing tree with
  | nil => rw [items, addAll, List.append_nil]
  | cons entry rest ih =>
    rw [List.forall_mem_cons] at hnodes
    have hsplit : tree ++ entry :: rest = tree ++ [entry] ++ rest := by simp
    rw [items, addAll, hnodes.1 tree h.notMem_front, hsplit]
    exact ih hnodes.2 (hsplit ▸ h)

/-- The item of an entry with a new key adds the entry behind the others. -/
theorem addTo_item (node : Node) : node.Has (spelled m) → ∀ (key : String) (tree : Selection),
    key ∉ Keyed.keys tree → (node.item key).addTo m tree = tree ++ [(key, node)] := by
  induction node using Node.ind with
  | marker n =>
    intro h key tree hkey
    obtain rfl : n = m := has_marker_iff.1 h
    rw [Node.item, Item.addTo, mergeEntry_of_notMem hkey]
  | group entries ih =>
    intro h key tree hkey
    obtain ⟨⟨hne, hdistinct⟩, hfits⟩ := has_group_iff.1 h
    obtain ⟨first, rest, hitems, hitem⟩ := exists_item_group hne
    have hentries : addAll m (items entries) [] = [] ++ entries :=
      addAll_items_of (fun entry hentry => ih entry hentry (hfits entry hentry).2 entry.1) hdistinct
    rw [hitems, addAll, List.nil_append] at hentries
    rw [hitem, Item.addTo, hentries, mergeEntry_of_notMem hkey]

theorem read_print {tree : Selection} (h : WellFormed m tree) : read m (print tree) = .ok tree := by
  have hdistinct : Keyed.Distinct ([] ++ tree) := h.1
  rw [read_of_spells (spells_print h.2),
    addAll_items_of (fun entry hentry => addTo_item entry.2 (h.2 entry hentry).2 entry.1) hdistinct,
    List.nil_append]

/-- **Reading undoes printing.**  What is read from a text is well formed, and a well-formed selection is
read from its print, with the same keys in the same order and at the same places. -/
theorem readOrError_print (m : Int32) :
    (∀ s tree, readOrError m s = .ok tree → WellFormed m tree) ∧
      ∀ tree, WellFormed m tree → readOrError m (print tree) = .ok tree := by
  constructor
  · exact fun s tree h => wellFormed_read (Outcome.mapError_eq_ok_iff.1 h)
  · intro tree h
    rw [readOrError, read_print h]
    rfl

/-! ### A friend and a phone -/

namespace FriendAndPhone

def tree : Selection :=
  [("friend", .group [("home.city", .marker included), ("name", .marker included)]),
    ("phone_1", .marker included)]

theorem wellFormed_tree : WellFormed included tree := by
  have hkeys : ∀ key ∈ ["friend", "home.city", "name", "phone_1"], IsKey key := by
    have hchars : ["friend", "home.city", "name", "phone_1"].all (·.toList.all isKeyChar) = true := by
      decide +kernel
    have hparts : ∀ key ∈ ["friend", "home.city", "name", "phone_1"], "" ∉ Path.ofText key := by
      decide +kernel
    intro key hkey
    refine ⟨List.all_eq_true.1 (List.all_eq_true.1 hchars key hkey), fun part hpart hempty => ?_⟩
    exact hparts key hkey (hempty ▸ hpart)
  simp only [List.forall_mem_cons] at hkeys
  simp [WellFormed, tree, Fits, has_group_iff, has_marker_iff, spelled, Keyed.Distinct, Keyed.keys, hkeys]

/-- The print of a selection with a group and a dotted key, and what is read from it. -/
theorem print_read : WellFormed included tree ∧
    print tree = "friend \x7b home.city name \x7d phone_1" ∧
    readOrError included (print tree) = .ok tree :=
  ⟨wellFormed_tree, by decide +kernel, (readOrError_print included).2 tree wellFormed_tree⟩

end FriendAndPhone

end DocQuery.Selection
