import DocQuery.Proofs.Keyed
import DocQuery.Proofs.Outcome
import DocQuery.Proofs.Path.Text
import DocQuery.Proofs.Text.Blank
import DocQuery.SortOrder

/-!
# Reading sort orders

A word of a sort order names a path and a direction (`SortKeys.Names`), and a text is read if all of its
words do.  What is read is the list of these keys in which each path stands once, at its first place and
with its last direction (`SortKeys.read_eq_ok_iff`, with the laws of `Keyed.ofList`).  Keys with distinct
paths are read back from their print, in which each key is a word again (`SortKeys.read_print`).
-/

namespace DocQuery.SortKeys

/-! ### Words -/

/-- A path that a sort order may name: no key of it is empty, and the keys are made of letters, numbers,
underscores and dollar signs. -/
def IsPath (path : String) : Prop :=
  ∀ key ∈ Path.ofText path, key ≠ "" ∧
    ∀ c ∈ key.toList, Text.isAlphanumeric c = true ∨ c = '_' ∨ c = '$'

/-- A word names a path and a direction: in front of the path is a minus if it is to descend, and a plus
or no sign if it is to ascend. -/
inductive Names : String → String × Direction → Prop
  | bare {path : String} (h : IsPath path) : Names path (path, .ascending)
  | plus {path : String} (h : IsPath path) : Names ("+" ++ path) (path, .ascending)
  | minus {path : String} (h : IsPath path) : Names ("-" ++ path) (path, .descending)

variable {path text : String} {key : String × Direction} {done result : SortKeys}

theorem IsPath.ne_empty (h : IsPath path) : path ≠ "" := by
  rintro rfl
  exact (h "" (List.mem_singleton_self "")).1 rfl

theorem isPathChar_iff {c : Char} :
    isPathChar c = true ↔ c = '.' ∨ Text.isAlphanumeric c = true ∨ c = '_' ∨ c = '$' := by
  simp only [isPathChar, Bool.or_eq_true, decide_eq_true_eq]
  tauto

theorem IsPath.isPathChar (h : IsPath path) {c : Char} (hc : c ∈ path.toList) : isPathChar c = true := by
  rw [isPathChar_iff]
  by_cases hpoint : c = '.'
  · exact .inl hpoint
  · obtain ⟨key, hkey, hmem⟩ := Path.mem_key_of_mem hc hpoint
    exact .inr ((h key hkey).2 c hmem)

theorem isPath_iff :
    IsPath path ↔ (∀ c ∈ path.toList, isPathChar c = true) ∧ "" ∉ Path.ofText path := by
  constructor
  · exact fun h => ⟨fun c => h.isPathChar, fun hempty => (h "" hempty).1 rfl⟩
  · rintro ⟨hchars, hempty⟩ key hkey
    refine ⟨fun e => hempty (e ▸ hkey), fun c hc => ?_⟩
    obtain ⟨hplain, hmem⟩ := Path.mem_ofText hkey
    have hpoint : c ≠ '.' := by
      rintro rfl
      exact hplain hc
    exact (isPathChar_iff.1 (hchars c (hmem c hc))).resolve_left hpoint

theorem checkPath_eq_ok_iff {cs : List Char} :
    checkPath cs = .ok path ↔ String.ofList cs = path ∧ IsPath path := by
  unfold checkPath
  split
  · next hnil =>
    obtain rfl := List.isEmpty_iff.1 hnil
    simp only [reduceCtorEq, false_iff, not_and]
    rintro rfl h
    exact h.ne_empty rfl
  · split
    · next c hfind =>
      have hc : isPathChar c = false := by simpa using List.find?_some hfind
      simp only [reduceCtorEq, false_iff, not_and]
      rintro rfl h
      have hmem : c ∈ (String.ofList cs).toList := by simpa using List.mem_of_find?_eq_some hfind
      rw [h.isPathChar hmem] at hc
      cases hc
    · next hfind =>
      have hchars : ∀ c ∈ (String.ofList cs).toList, isPathChar c = true := by
        simpa [List.find?_eq_none] using hfind
      dsimp only
      split
      · next hempty =>
        simp only [reduceCtorEq, false_iff, not_and]
        rintro rfl h
        exact (h "" (List.contains_iff_mem.1 hempty)).1 rfl
      · next hempty =>
        rw [Except.ok.injEq]
        refine (and_iff_left_of_imp ?_).symm
        rintro rfl
        exact isPath_iff.2 ⟨hchars, by simpa using hempty⟩

theorem splitSign_of_isPathChar {cs : List Char} (h : ∀ c ∈ cs, isPathChar c = true) :
    splitSign cs = (cs, .ascending) := by
  have hsigns : isPathChar '-' = false ∧ isPathChar '+' = false := by decide
  unfold splitSign
  split
  · simp [hsigns.1] at h
  · simp [hsigns.2] at h
  · rfl

/-- Cutting the sign off gives the path and the direction that a word names. -/
theorem names_iff :
    Names text key ↔ splitSign text.toList = (key.1.toList, key.2) ∧ IsPath key.1 := by
  constructor
  · rintro (h | h | h)
    · exact ⟨splitSign_of_isPathChar fun c => h.isPathChar, h⟩
    · exact ⟨by rw [String.toList_append]; rfl, h⟩
    · exact ⟨by rw [String.toList_append]; rfl, h⟩
  · obtain ⟨path, direction⟩ := key
    rintro ⟨hsplit, hpath⟩
    unfold splitSign at hsplit
    split at hsplit
    · next rest htext =>
      obtain ⟨rfl, rfl⟩ := Prod.mk.inj hsplit
      obtain rfl : text = "-" ++ path := by rw [← String.toList_inj, htext, String.toList_append]; rfl
      exact .minus hpath
    · next rest htext =>
      obtain ⟨rfl, rfl⟩ := Prod.mk.inj hsplit
      obtain rfl : text = "+" ++ path := by rw [← String.toList_inj, htext, String.toList_append]; rfl
      exact .plus hpath
    · obtain ⟨htext, rfl⟩ := Prod.mk.inj hsplit
      obtain rfl := String.toList_inj.1 htext
      exact .bare hpath

/-- One more word sets the direction of the path that it names. -/
theorem addWord_eq_ok_iff :
    addWord done text = .ok result ↔ ∃ key, Names text key ∧ Keyed.put key.1 key.2 done = result := by
  rw [addWord, Outcome.bind_eq_ok_iff]
  simp only [checkPath_eq_ok_iff, names_iff, Except.ok.injEq]
  constructor
  · rintro ⟨path, ⟨rfl, hpath⟩, rfl⟩
    have hsplit : splitSign text.toList =
        ((String.ofList (splitSign text.toList).1).toList, (splitSign text.toList).2) := by
      rw [String.toList_ofList]
    exact ⟨(_, _), ⟨hsplit, hpath⟩, rfl⟩
  · rintro ⟨⟨path, direction⟩, ⟨hsplit, hpath⟩, rfl⟩
    rw [hsplit]
    exact ⟨path, ⟨String.ofList_toList, hpath⟩, rfl⟩

theorem foldlM_addWord_eq_ok_iff {texts : List String} :
    texts.foldlM addWord done = .ok result ↔
      ∃ keys, List.Forall₂ Names texts keys ∧ Keyed.putAll done keys = result := by
  induction texts generalizing done with
  | nil =>
    simp only [List.forall₂_nil_left_iff, exists_eq_left]
    exact Except.ok.injEq done result ▸ Iff.rfl
  | cons text rest ih =>
    rw [List.foldlM_cons, Outcome.bind_eq_ok_iff]
    simp only [addWord_eq_ok_iff, ih, List.forall₂_cons_left_iff]
    constructor
    · rintro ⟨_, ⟨key, hkey, rfl⟩, keys, hkeys, rfl⟩
      exact ⟨key :: keys, ⟨key, keys, hkey, hkeys, rfl⟩, rfl⟩
    · rintro ⟨_, ⟨key, keys, hkey, hkeys, rfl⟩, rfl⟩
      exact ⟨_, ⟨key, hkey, rfl⟩, keys, hkeys, rfl⟩

/-- A text is read if each of its words names a path; each path that is named stands once in the
result. -/
theorem read_eq_ok_iff {s : String} :
    read s = .ok result ↔
      ∃ keys, List.Forall₂ Names (Text.words s) keys ∧ Keyed.ofList keys = result :=
  foldlM_addWord_eq_ok_iff

/-! ### Printing -/

/-- A key as a word: its path, with a minus in front if it is to descend. -/
def word : String × Direction → String
  | (path, .descending) => "-" ++ path
  | (path, _) => path

/-- Keys as text. -/
def print (keys : SortKeys) : String := " ".intercalate (keys.map word)

/-- A key that a word can name. -/
def CanBeNamed (key : String × Direction) : Prop := IsPath key.1 ∧ key.2 ≠ .relevance

theorem names_word (h : CanBeNamed key) : Names (word key) key := by
  obtain ⟨path, direction⟩ := key
  cases direction with
  | ascending => exact .bare h.1
  | descending => exact .minus h.1
  | relevance => exact absurd rfl h.2

theorem Names.canBeNamed (h : Names text key) : CanBeNamed key := by
  rcases h with h | h | h <;> exact ⟨h, nofun⟩

theorem isBlank_of_isPathChar {c : Char} (h : isPathChar c = true) : Text.isBlank c = false := by
  rcases isPathChar_iff.1 h with rfl | h | rfl | rfl
  · decide
  · exact Text.isBlank_of_isAlphanumeric h
  · decide
  · decide

theorem IsPath.isWord (h : IsPath path) : Text.IsWord path :=
  ⟨h.ne_empty, fun _ hc => isBlank_of_isPathChar (h.isPathChar hc)⟩

theorem isWord_word (h : IsPath key.1) : Text.IsWord (word key) := by
  obtain ⟨path, direction⟩ := key
  have hminus : Text.IsWord ("-" ++ path) := by
    have hsign : Text.isBlank '-' = false := by decide
    refine ⟨by simp [h.ne_empty], ?_⟩
    rw [String.toList_append, List.forall_mem_append]
    exact ⟨by simpa using hsign, h.isWord.2⟩
  cases direction with
  | ascending | relevance => exact h.isWord
  | descending => exact hminus

/-- Keys with distinct paths are read from their print. -/
theorem read_print {keys : SortKeys} (hdistinct : Keyed.Distinct keys)
    (h : ∀ key ∈ keys, CanBeNamed key) : read (print keys) = .ok keys := by
  have hwords : Text.words (print keys) = keys.map word :=
    Text.words_intercalate (List.forall_mem_map.2 fun key hkey => isWord_word (h key hkey).1)
  refine read_eq_ok_iff.2 ⟨keys, ?_, Keyed.ofList_of_distinct hdistinct⟩
  rw [hwords, List.forall₂_map_left_iff, List.forall₂_same]
  exact fun key hkey => names_word (h key hkey)

theorem canBeNamed_of_read {s : String} (h : read s = .ok result) : ∀ key ∈ result, CanBeNamed key := by
  obtain ⟨keys, hkeys, rfl⟩ := read_eq_ok_iff.1 h
  intro key hkey
  obtain ⟨_, -, hnames⟩ := Outcome.exists_of_forall₂ hkeys (Keyed.mem_of_mem_ofList hkey)
  exact hnames.canBeNamed

/-- **A sort order is read word by word, and each path stands once in it.**  A text is read just if each
of its words is a path that may be named, behind at most one sign.  The paths stand in the order in which
they are first named, and each one has the direction with which it is named last.  Keys with distinct
paths are read back from their print, and so is all that is read. -/
theorem read_by_words (s : String) :
    ((∃ keys, read s = .ok keys) ↔ ∀ text ∈ Text.words s, ∃ key, Names text key) ∧
      (∀ keys, read s = .ok keys →
        ∃ named, List.Forall₂ Names (Text.words s) named ∧ Keyed.Distinct keys ∧
          Keyed.keys keys = (Keyed.keys named).eraseDups ∧
          ∀ path, keys.lookup path = named.reverse.lookup path) ∧
      (∀ keys : SortKeys, Keyed.Distinct keys → (∀ key ∈ keys, CanBeNamed key) →
        read (print keys) = .ok keys) ∧
      ∀ keys, read s = .ok keys → read (print keys) = .ok keys := by
  refine ⟨?_, fun keys hkeys => ?_, fun keys => read_print, fun keys hkeys => ?_⟩
  · simp only [read_eq_ok_iff, ← Outcome.exists_forall₂_iff]
    exact ⟨fun ⟨_, named, hnamed, _⟩ => ⟨named, hnamed⟩, fun ⟨named, hnamed⟩ => ⟨_, named, hnamed, rfl⟩⟩
  · obtain ⟨named, hnamed, rfl⟩ := read_eq_ok_iff.1 hkeys
    exact ⟨named, hnamed, Keyed.distinct_ofList named, Keyed.keys_ofList named, Keyed.lookup_ofList named⟩
  · have hnamed := canBeNamed_of_read hkeys
    obtain ⟨named, -, rfl⟩ := read_eq_ok_iff.1 hkeys
    exact read_print (Keyed.distinct_ofList named) hnamed

/-! ### Birthdays and names -/

namespace BirthdaysAndNames

def keys : SortKeys := [("name", .descending), ("home.city", .ascending), ("$born", .descending)]

theorem canBeNamed_keys : ∀ key ∈ keys, CanBeNamed key := by
  have hchars : ["name", "home.city", "$born"].all (·.toList.all isPathChar) = true := by
    decide +kernel
  have hparts : ∀ path ∈ ["name", "home.city", "$born"], "" ∉ Path.ofText path := by decide +kernel
  have hpaths : ∀ path ∈ ["name", "home.city", "$born"], IsPath path := fun path hpath =>
    isPath_iff.2 ⟨List.all_eq_true.1 (List.all_eq_true.1 hchars path hpath), hparts path hpath⟩
  simp only [List.forall_mem_cons] at hpaths
  simp [keys, CanBeNamed, hpaths]

/-- The name is named twice: it stays in front, and descends. -/
theorem name_descends :
    read "name +home.city  -$born -name" = .ok keys ∧ print keys = "-name home.city -$born" ∧
      (∀ text ∈ Text.words "name +home.city  -$born -name", ∃ key, Names text key) ∧
      read (print keys) = .ok keys := by
  have hread : read "name +home.city  -$born -name" = .ok keys := by decide +kernel
  have hdistinct : Keyed.Distinct keys := by simp [Keyed.Distinct, Keyed.keys, keys]
  obtain ⟨hwords, -, hprinted, -⟩ := read_by_words "name +home.city  -$born -name"
  exact ⟨hread, by decide +kernel, hwords.1 ⟨keys, hread⟩, hprinted keys hdistinct canBeNamed_keys⟩

end BirthdaysAndNames

end DocQuery.SortKeys
