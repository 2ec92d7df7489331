import DocQuery.Path
import Mathlib.Data.List.Basic

/-!
# Paths as texts, and paths that are apart

Cutting a text at its points and joining keys with points are inverse to each other, as long as there
is a key and no key has a point of its own (`Path.ofText_text`).  Two paths are *apart* if neither is
a beginning of the other one: then what happens at one of them does not concern the other.
-/

namespace DocQuery.Path

/-! ### Texts -/

/-- A key without points. -/
def Plain (key : String) : Prop := '.' ∉ key.toList

instance : DecidablePred Plain := fun key => inferInstanceAs (Decidable ('.' ∉ key.toList))

theorem ofText_ne_nil (s : String) : ofText s ≠ [] := by simp [ofText]

theorem ofText_of_plain {key : String} (h : Plain key) : ofText key = [key] := by
  rw [ofText, List.splitOn_eq_singleton h]
  simp

theorem mem_splitOn {α : Type} [BEq α] [LawfulBEq α] {a : α} {cs part : List α}
    (h : part ∈ cs.splitOn a) : a ∉ part ∧ ∀ c ∈ part, c ∈ cs := by
  induction cs generalizing part with
  | nil =>
    rw [List.splitOn_nil, List.mem_singleton] at h
    simp [h]
  | cons c rest ih =>
    rw [List.splitOn_cons_eq_if_modifyHead] at h
    split at h
    · rcases List.mem_cons.1 h with rfl | h
      · simp
      · exact ⟨(ih h).1, fun c hc => List.mem_cons_of_mem _ ((ih h).2 c hc)⟩
    · next hne =>
      obtain ⟨first, others, hsplit⟩ := List.exists_cons_of_ne_nil (List.splitOn_ne_nil a rest)
      rw [hsplit, List.modifyHead_cons] at h
      have hfirst : a ∉ first ∧ ∀ c ∈ first, c ∈ rest := ih (by simp [hsplit])
      rcases List.mem_cons.1 h with rfl | h
      · refine ⟨?_, ?_⟩
        · simpa using ⟨fun e => hne (by simp [e]), hfirst.1⟩
        · simpa using fun c hc => .inr (hfirst.2 c hc)
      · have hpart : a ∉ part ∧ ∀ c ∈ part, c ∈ rest := ih (by simp [hsplit, h])
        exact ⟨hpart.1, fun c hc => List.mem_cons_of_mem _ (hpart.2 c hc)⟩

theorem mem_part_of_mem {α : Type} [BEq α] [LawfulBEq α] {a c : α} {cs : List α} (h : c ∈ cs)
    (hne : c ≠ a) : ∃ part ∈ cs.splitOn a, c ∈ part := by
  induction cs with
  | nil => cases h
  | cons first rest ih =>
    rw [List.splitOn_cons_eq_if_modifyHead]
    split
    · next hfirst =>
      obtain ⟨part, hpart, hc⟩ := ih ((List.mem_cons.1 h).resolve_left fun e => hne (e ▸ eq_of_beq hfirst))
      exact ⟨part, List.mem_cons_of_mem _ hpart, hc⟩
    · obtain ⟨next, others, hsplit⟩ := List.exists_cons_of_ne_nil (List.splitOn_ne_nil a rest)
      rw [hsplit, List.modifyHead_cons]
      rcases List.mem_cons.1 h with rfl | h
      · exact ⟨c :: next, List.mem_cons_self, List.mem_cons_self⟩
      · obtain ⟨part, hpart, hc⟩ := ih h
        rw [hsplit] at hpart
        rcases List.mem_cons.1 hpart with rfl | hpart
        · exact ⟨first :: part, List.mem_cons_self, List.mem_cons_of_mem _ hc⟩
        · exact ⟨part, List.mem_cons_of_mem _ hpart, hc⟩

theorem mem_ofText {s key : String} (h : key ∈ ofText s) :
    Plain key ∧ ∀ c ∈ key.toList, c ∈ s.toList := by
  obtain ⟨part, hpart, rfl⟩ := List.mem_map.1 h
  simpa [Plain] using mem_splitOn hpart

/-- Every character of a text is a point or stands in one of the keys. -/
theorem mem_key_of_mem {s : String} {c : Char} (h : c ∈ s.toList) (hne : c ≠ '.') :
    ∃ key ∈ ofText s, c ∈ key.toList := by
  obtain ⟨part, hpart, hc⟩ := mem_part_of_mem h hne
  exact ⟨String.ofList part, List.mem_map_of_mem hpart, by simpa using hc⟩

theorem plain_of_mem_ofText {s key : String} (h : key ∈ ofText s) : Plain key := (mem_ofText h).1

/-- Keys without points, joined by points and cut at them again. -/
theorem ofText_text {path : Path} (hne : path ≠ []) (h : ∀ key ∈ path, Plain key) :
    ofText (text path) = path := by
  have hcut : ((".".intercalate path).toList.splitOn '.') = path.map String.toList := by
    rw [String.toList_intercalate]
    refine List.splitOn_intercalate '.' ?_ (by simpa using hne)
    simpa [Plain] using h
  rw [ofText, text, hcut, List.map_map]
  exact List.map_id'' (fun _ => String.ofList_toList) path

/-- A text cut at its points and joined again. -/
theorem text_ofText (s : String) : text (ofText s) = s := by
  rw [← String.toList_inj, text, String.toList_intercalate, ofText, List.map_map]
  have hmap : (s.toList.splitOn '.').map (String.toList ∘ String.ofList) = s.toList.splitOn '.' :=
    List.map_id'' (fun _ => String.toList_ofList) _
  rw [hmap]
  exact List.intercalate_splitOn '.'

theorem ofText_injective : Function.Injective ofText := fun s t h => by
  rw [← text_ofText s, h, text_ofText]

theorem ofText_append (above key : String) :
    ofText (above ++ "." ++ key) = ofText above ++ ofText key := by
  have hchars : (above ++ "." ++ key).toList = above.toList ++ '.' :: key.toList := by simp
  rw [ofText, hchars, List.splitOn_append_cons_self, List.map_append]
  rfl

/-! ### Paths that are apart -/

/-- Neither path is a beginning of the other one. -/
def Apart (p q : Path) : Prop := ¬ p <+: q ∧ ¬ q <+: p

variable {p q r : Path} {key : String}

theorem Apart.symm (h : Apart p q) : Apart q p := ⟨h.2, h.1⟩

theorem not_apart_nil (p : Path) : ¬ Apart [] p := fun h => h.1 p.nil_prefix

theorem Apart.ne_nil (h : Apart p q) : p ≠ [] := by
  rintro rfl
  exact not_apart_nil q h

/-- Paths that are apart stay so if one of them goes on. -/
theorem Apart.of_longer (h : Apart p q) (hq : q <+: r) : Apart p r := by
  constructor
  · intro hp
    rcases List.prefix_or_prefix_of_prefix hp hq with hpq | hqp
    · exact h.1 hpq
    · exact h.2 hqp
  · intro hr
    exact h.2 (hq.trans hr)

theorem Apart.append_left (h : Apart p q) (r : Path) : Apart (p ++ r) q :=
  (h.symm.of_longer (List.prefix_append p r)).symm

theorem apart_append_iff (f : Path) : Apart (f ++ p) (f ++ q) ↔ Apart p q := by
  simp [Apart, List.prefix_append_right_inj]

theorem apart_cons_iff : Apart (key :: p) (key :: q) ↔ Apart p q := apart_append_iff [key]

theorem apart_cons_of_ne {other : String} (h : key ≠ other) : Apart (key :: p) (other :: q) := by
  simp [Apart, List.cons_prefix_cons, h, Ne.symm h]

/-- Two paths are apart, or one is a beginning of the other one. -/
theorem apart_or (p q : Path) : Apart p q ∨ p <+: q ∨ q <+: p := by
  unfold Apart
  tauto

end DocQuery.Path
