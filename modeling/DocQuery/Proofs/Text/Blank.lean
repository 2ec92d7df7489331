import DocQuery.Text.Alphanumeric
import DocQuery.Text.Blank
import Mathlib.Data.List.TakeWhile

/-!
# Blanks

No letter and no number is a blank (`isBlank_of_isAlphanumeric`).  So a text keeps all its letters and numbers
if the blanks at its ends are taken away (`filter_trim`), and if anything is left of it then, it has a word
(`words_ne_nil_of_trim`).
-/

namespace DocQuery.Text

theorem mem_points_of_isBlank {c : Char} (h : isBlank c = true) : c.toNat ∈ blankRanges.points := by
  have hpoints : blankRanges.points = [9, 10, 11, 12, 13, 32, 133, 160, 5760, 8192, 8193, 8194, 8195,
      8196, 8197, 8198, 8199, 8200, 8201, 8202, 8232, 8233, 8239, 8287, 12288] := by decide
  simp only [isBlank, blankRanges, Ranges.contains, Bool.if_false_left, Bool.if_true_left] at h
  rw [hpoints]
  simp at h ⊢
  omega

theorem isBlank_of_isAlphanumeric {c : Char} (h : isAlphanumeric c = true) : isBlank c = false := by
  have hnone : ∀ point ∈ blankRanges.points, alphanumericRanges.contains point = false := by
    decide +kernel
  by_contra hblank
  have hpoint := hnone _ (mem_points_of_isBlank (by simpa using hblank))
  rw [isAlphanumeric, hpoint] at h
  cases h

/-- What is no blank is kept. -/
theorem filter_dropWhile_isBlank {p : Char → Bool} (hp : ∀ c, p c = true → isBlank c = false)
    (cs : List Char) : (cs.dropWhile isBlank).filter p = cs.filter p := by
  induction cs with
  | nil => rfl
  | cons c rest ih =>
    cases hc : isBlank c with
    | false => rw [List.dropWhile_cons_of_neg (by simp [hc])]
    | true =>
      have hnot : p c ≠ true := fun h => by
        rw [hp c h] at hc
        cases hc
      rw [List.dropWhile_cons_of_pos hc, ih, List.filter_cons_of_neg hnot]

/-- A text keeps its letters and numbers if the blanks at its ends are taken away. -/
theorem filter_trim (s : String) :
    (trim s).toList.filter isAlphanumeric = s.toList.filter isAlphanumeric := by
  have hblank : ∀ c, isAlphanumeric c = true → isBlank c = false := fun _ => isBlank_of_isAlphanumeric
  rw [trim, String.toList_ofList, dropBlanksRight, List.filter_reverse, filter_dropWhile_isBlank hblank,
    List.filter_reverse, List.reverse_reverse, filter_dropWhile_isBlank hblank]

/-! ### Words -/

theorem exists_not_isBlank_of_trim {s : String} (h : trim s ≠ "") :
    ∃ c ∈ (trim s).toList, isBlank c = false := by
  rw [trim, String.toList_ofList, dropBlanksRight]
  rw [trim, dropBlanksRight] at h
  have hne : (s.toList.dropWhile isBlank).reverse.dropWhile isBlank ≠ [] := fun hnil =>
    h (by rw [hnil]; rfl)
  exact ⟨_, List.mem_reverse.2 (List.head_mem hne), List.head_dropWhile_not isBlank hne⟩

theorem runsBetween_ne_nil {p : Char → Bool} {c : Char} {cs : List Char} (hmem : c ∈ cs)
    (hc : p c = false) : runsBetween p cs ≠ [] := by
  induction cs with
  | nil => cases hmem
  | cons d rest ih =>
    rw [runsBetween, List.splitOnP_cons_eq_if_modifyHead]
    split
    · next hd =>
      have hne : c ≠ d := by
        rintro rfl
        rw [hc] at hd
        cases hd
      exact ih ((List.mem_cons.1 hmem).resolve_left hne)
    · obtain ⟨first, others, hsplit⟩ := List.exists_cons_of_ne_nil (List.splitOnP_ne_nil p rest)
      simp [hsplit]

/-- A text that is not blank has a word. -/
theorem words_ne_nil_of_trim {s : String} (h : trim s ≠ "") : words (trim s) ≠ [] := by
  rw [words, ne_eq, List.map_eq_nil_iff]
  obtain ⟨c, hmem, hc⟩ := exists_not_isBlank_of_trim h
  exact runsBetween_ne_nil hmem hc

/-- A text that is not empty and in which no blank stands. -/
def IsWord (s : String) : Prop := s ≠ "" ∧ ∀ c ∈ s.toList, isBlank c = false

theorem words_of_isWord {s : String} (h : IsWord s) : words s = [s] := by
  have hsplit : s.toList.splitOnP isBlank = [s.toList] := List.splitOnP_eq_singleton h.2
  simp [words, runsBetween, hsplit, h.1]

theorem words_append_blank (s t : String) : words (s ++ " " ++ t) = words s ++ words t := by
  have hcut : (s ++ " " ++ t).toList = s.toList ++ ' ' :: t.toList := by simp
  have hblank : isBlank ' ' = true := by decide
  rw [words, hcut, runsBetween, List.splitOnP_append_cons _ _ hblank, List.filter_append,
    List.map_append]
  rfl

/-- Words with blanks between them are the words of the text. -/
theorem words_intercalate {texts : List String} (h : ∀ text ∈ texts, IsWord text) :
    words (" ".intercalate texts) = texts := by
  induction texts with
  | nil => rfl
  | cons text rest ih =>
    rw [List.forall_mem_cons] at h
    cases rest with
    | nil => simpa using words_of_isWord h.1
    | cons next rest =>
      rw [String.intercalate_cons_cons, words_append_blank, words_of_isWord h.1, ih h.2]
      rfl

end DocQuery.Text
