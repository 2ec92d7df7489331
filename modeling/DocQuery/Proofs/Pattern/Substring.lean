import DocQuery.Condition
import DocQuery.Proofs.Pattern.Literal

/-!
# Texts with wildcards

The pattern for a substring keeps the word characters of a text and writes a point for every other one.  A
word character stands for those that differ from it by case at most, a point for every character but a line
feed (`Text.StandsFor`).  So the pattern is found where some stretch of a text has such a character for each
character of the substring (`Pattern.found_resembling_iff`).  In particular a text is found in itself unless
it has a line feed in it (`Text.resembles_self_iff`).
-/

namespace DocQuery

/-- A character that the pattern for a substring keeps as it is. -/
def Condition.isKept (c : Char) : Bool := Text.isAlphanumeric c || c = '_'

namespace Text

open Condition

/-- What a character of a substring stands for: a word character for those that differ by case at most,
every other one for any character but a line feed. -/
def StandsFor (c d : Char) : Prop :=
  if isKept c then fold d.toNat = fold c.toNat else d ≠ '\n'

instance (c d : Char) : Decidable (StandsFor c d) :=
  inferInstanceAs (Decidable (if isKept c then fold d.toNat = fold c.toNat else d ≠ '\n'))

/-- A stretch of a text is what a substring stands for. -/
def Resembles (s substring : String) : Prop :=
  ∃ mid, mid <:+: s.toList ∧ List.Forall₂ StandsFor substring.toList mid

theorem standsFor_self_iff {c : Char} : StandsFor c c ↔ c ≠ '\n' := by
  unfold StandsFor
  split
  · next hkept =>
    refine iff_of_true rfl ?_
    rintro rfl
    exact absurd hkept (by decide +kernel)
  · rfl

theorem forall₂_standsFor_self_iff {cs : List Char} : List.Forall₂ StandsFor cs cs ↔ '\n' ∉ cs := by
  rw [List.forall₂_same]
  simp only [standsFor_self_iff]
  exact ⟨fun h hmem => h '\n' hmem rfl, fun h c hc hline => h (hline ▸ hc)⟩

/-- A text resembles itself unless it has a line feed in it. -/
theorem resembles_self_iff {s : String} : Resembles s s ↔ '\n' ∉ s.toList := by
  rw [← forall₂_standsFor_self_iff]
  constructor
  · rintro ⟨mid, hmid, hkinds⟩
    rwa [hmid.eq_of_length hkinds.length_eq.symm] at hkinds
  · exact fun h => ⟨s.toList, List.infix_refl _, h⟩

theorem Resembles.mono {s text substring : String} (h : Resembles s substring)
    (htext : s.toList <:+: text.toList) : Resembles text substring := by
  obtain ⟨mid, hmid, hkinds⟩ := h
  exact ⟨mid, hmid.trans htext, hkinds⟩

end Text

namespace CharSet

open Text

theorem contains_complement {set : CharSet} (h : Ranges.Ascending set) (c : Char) :
    Ranges.contains set.complement c.toNat = true ↔ Ranges.contains set c.toNat = false := by
  have hlast : c.toNat ≤ 0x10FFFF := by
    rcases c.valid with h | ⟨-, h⟩
    · exact Nat.le_of_lt (h.trans (by decide))
    · exact Nat.le_of_lt_succ h
  have hall : Ranges.contains all c.toNat = true := contains_range.2 ⟨Nat.zero_le _, hlast⟩
  have hascending : Ranges.Ascending all := ascending_range (Nat.zero_le _)
  rw [complement, difference, Ranges.contains_combine rfl hascending h, hall]
  simp

end CharSet

namespace Pattern

open Condition

variable {flags : Flags}

/-- A point stands for every character but a line feed. -/
theorem Flags.spells_dot (hdotAll : flags.dotAll = false) (hcrlf : flags.crlf = false) :
    flags.dot.Spells [fun d => d ≠ '\n'] := by
  have hdot : flags.dot = .set (.complement (.single '\n')) := by simp [dot, hdotAll, hcrlf]
  have hkind : (fun d : Char => Text.Ranges.contains (CharSet.complement (.single '\n')) d.toNat = true) =
      fun d => d ≠ '\n' := by
    funext d
    have hline : Text.Ranges.Ascending (CharSet.single '\n') := CharSet.ascending_range (Nat.le_refl _)
    rw [CharSet.contains_complement hline, ← Bool.not_eq_true, CharSet.single, CharSet.contains_range,
      ne_eq, ← Char.toNat_inj]
    exact propext (not_congr (by omega))
  rw [hdot, ← hkind]
  exact spells_set _

theorem Flags.isPlain_dot (flags : Flags) : flags.dot.isPlain = true := by
  unfold dot
  split
  · rfl
  · split <;> rfl

/-- The pattern of a character in a substring. -/
def Flags.loose (flags : Flags) (c : Char) : Pattern := if isKept c then flags.literal c else flags.dot

theorem Flags.isPlain_loose (flags : Flags) (c : Char) : (flags.loose c).isPlain = true := by
  unfold loose
  split
  · exact flags.isPlain_literal c
  · exact flags.isPlain_dot

theorem Flags.spells_loose (hcaseless : flags.caseless = true) (hascii : flags.ascii = false)
    (hdotAll : flags.dotAll = false) (hcrlf : flags.crlf = false) (c : Char) :
    (flags.loose c).Spells [Text.StandsFor c] := by
  unfold loose Text.StandsFor
  split
  · exact spells_literal hcaseless hascii c
  · exact spells_dot hdotAll hcrlf

/-- What is kept means nothing in a pattern. -/
theorem isMeta_of_isKept {c : Char} (h : isKept c = true) : isMeta c = false := by
  have hmetas : (metaCharacters.all fun d => !isKept d) = true := by decide +kernel
  by_contra hmeta
  have hnot := List.all_eq_true.1 hmetas c (List.contains_iff_mem.1 (eq_true_of_ne_false hmeta))
  rw [h] at hnot
  cases hnot

/-- A character as it is written in the pattern for a substring. -/
def sanitized (c : Char) : List Char := if isKept c then [c] else ['.']

theorem readsAs_sanitized (hverbose : flags.verbose = false) (hascii : flags.ascii = false) (c : Char) :
    ReadsAs flags (sanitized c) (flags.loose c) := by
  unfold sanitized Flags.loose
  split
  · next h => exact readsAs_plain hverbose (isMeta_of_isKept h)
  · intro fuel done items rest
    simp [readGroup, Flags.skip, hverbose, readSimple, hascii]

theorem substringPattern_eq (s : String) :
    substringPattern s = String.ofList (s.toList.flatMap sanitized) := by
  have hone : sanitized = fun c => [if isKept c then c else '.'] := by
    funext c
    unfold sanitized
    split <;> rfl
  rw [hone, ← List.map_eq_flatMap]
  rfl

/-- The pattern of a substring, character by character. -/
def resembling (flags : Flags) (s : String) : Pattern := inSequence (s.toList.map flags.loose)

/-- The pattern for a substring is read character by character, unless its automaton is too large. -/
theorem read_substringPattern (hverbose : flags.verbose = false) (hascii : flags.ascii = false)
    (s : String) : read flags (substringPattern s) =
      if (resembling flags s).fits then some (resembling flags s) else none := by
  rw [substringPattern_eq]
  exact read_flatMap hverbose (readsAs_sanitized hverbose hascii) flags.isPlain_loose s.toList

theorem found_resembling_iff (hcaseless : flags.caseless = true) (hascii : flags.ascii = false)
    (hdotAll : flags.dotAll = false) (hcrlf : flags.crlf = false) (substring s : String) :
    (resembling flags substring).found s = true ↔ Text.Resembles s substring := by
  have hspells := spells_inSequence (Flags.spells_loose hcaseless hascii hdotAll hcrlf) flags.isPlain_loose
    substring.toList
  rw [resembling, hspells.found_iff, Text.Resembles]
  simp only [List.forall₂_map_left_iff]

end Pattern

end DocQuery
