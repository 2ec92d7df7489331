import DocQuery.Proofs.Filter.Cutting
import DocQuery.Proofs.Filter.Terms
import DocQuery.Proofs.Path.Text
import DocQuery.Proofs.Path.Values
import DocQuery.Proofs.Pattern.Substring

/-!
# Texts that include a substring

The condition that a substring is included asks for its pattern without regard to case.  So a document
passes it if some text at the path resembles the substring (`Condition.finds_included_iff`).  A text that
contains the substring does so unless the substring has a line feed in it: a point does not stand for that.
-/

namespace DocQuery

open Test

namespace Condition

variable {s path : String}

/-- The text that asks for a substring. -/
def including (s : String) : String := "\x7b$includes\x7d" ++ s

/-- The automaton of the pattern for a substring is not too large. -/
def Includable (s : String) : Prop := (Pattern.resembling (flagsOf "i") s).fits = true

instance (s : String) : Decidable (Includable s) :=
  inferInstanceAs (Decidable ((Pattern.resembling (flagsOf "i") s).fits = true))

theorem includable_of_charge (h : Pattern.chargeAll (s.toList.map (flagsOf "i").loose) + 208 ≤ Extent.limit) :
    Includable s :=
  Pattern.fits_inSequence (List.forall_mem_map.2 fun c _ => (flagsOf "i").isPlain_loose c) h

theorem read_including (hs : '\x7b' ∉ s.toList) :
    read (including s) = ⟨false, including s, [⟨some "$includes", s⟩]⟩ := by
  have htext : (including s).toList = '\x7b' :: ("$includes".toList ++ '\x7d' :: s.toList) := by
    rw [including, String.toList_append]
    rfl
  have hmark : stripMark (including s).toList = none := by rw [htext]; rfl
  obtain ⟨huntil, hfrom⟩ := untilBrace_of_notMem hs
  have hoperator : '\x7d' ∉ "$includes".toList := by decide
  rw [read, hmark, htext, termsOf_operator hoperator, huntil, hfrom, termsOf, String.ofList_toList,
    String.ofList_toList]

theorem compile_including (hs : '\x7b' ∉ s.toList) (info : Option FieldInfo) :
    (read (including s)).compile info = Search.containing (substringPattern s) := by
  rw [read_including hs]
  rfl

/-- The condition asks for the pattern of the substring. -/
theorem readField_including (hpath : isOperatorKey path = false) (hs : '\x7b' ∉ s.toList)
    (info : Option FieldInfo) (test : Test) :
    readField path ((read (including s)).compile info) = .ok test ↔
      Includable s ∧ test = .finds path (Pattern.resembling (flagsOf "i") s) := by
  rw [compile_including hs, Search.readField_containing hpath,
    Search.readPattern_eq_ok_iff (Pattern.read_substringPattern rfl rfl s), Includable]

theorem readable_including_iff (hpath : isOperatorKey path = false) (hs : '\x7b' ∉ s.toList)
    (info : Option FieldInfo) :
    Readable [(path, (read (including s)).compile info)] ↔ Includable s := by
  rw [readable_singleton_iff]
  simp only [readField_including hpath hs, exists_and_left, exists_eq, and_true]

theorem admits_including_iff (hpath : isOperatorKey path = false) (hs : '\x7b' ∉ s.toList)
    (info : Option FieldInfo) (doc : Document) (relevance : Nat) :
    Admits [(path, (read (including s)).compile info)] doc relevance ↔
      Includable s ∧ ∃ text, Value.string text ∈ valuesAt doc path ∧ Text.Resembles text s := by
  have hcaseless : (flagsOf "i").caseless = true := by decide
  have hdotAll : (flagsOf "i").dotAll = false := by decide
  have hfound := Pattern.found_resembling_iff hcaseless rfl hdotAll rfl s
  rw [admits_singleton_iff]
  simp only [readField_including hpath hs, and_assoc, exists_and_left, exists_eq_left,
    Search.holds_finds_iff, hfound]

/-- A document that has nothing but a text, at a path. -/
theorem exists_valuesAt_eq (path text : String) :
    ∃ doc, valuesAt doc path = [Value.string text] :=
  ⟨Path.set [] (Path.ofText path) (.string text),
    Path.candidates_of_get trivial (Path.get_set_self (Path.ofText_ne_nil path) [] _)⟩

/-- **A substring is found in the texts that contain it, but for line feeds.**  The condition that a text
at a path includes a substring can be read if the automaton of its pattern is not too large.  A document
passes it if some text there has a stretch of the same length, with the same word characters up to case and
no line feed where the substring has another character.  So no text that contains the substring is missed
exactly if the substring has no line feed in it. -/
theorem finds_included_iff (hpath : isOperatorKey path = false) (hs : '\x7b' ∉ s.toList)
    (info : Option FieldInfo) :
    (Readable [(path, (read (including s)).compile info)] ↔ Includable s) ∧
    (∀ doc relevance, Admits [(path, (read (including s)).compile info)] doc relevance ↔
      Includable s ∧ ∃ text, Value.string text ∈ valuesAt doc path ∧ Text.Resembles text s) ∧
    ((∀ doc relevance text, Value.string text ∈ valuesAt doc path → s.toList <:+: text.toList →
        Admits [(path, (read (including s)).compile info)] doc relevance) ↔
      Includable s ∧ '\n' ∉ s.toList) := by
  refine ⟨readable_including_iff hpath hs info, admits_including_iff hpath hs info, ?_⟩
  simp only [admits_including_iff hpath hs info]
  constructor
  · intro h
    obtain ⟨doc, hdoc⟩ := exists_valuesAt_eq path s
    have hmem : Value.string s ∈ valuesAt doc path := hdoc ▸ List.mem_singleton_self _
    obtain ⟨hfits, text, htext, hlike⟩ := h doc 0 s hmem (List.infix_refl _)
    rw [hdoc, List.mem_singleton, Value.string.injEq] at htext
    exact ⟨hfits, Text.resembles_self_iff.1 (htext ▸ hlike)⟩
  · rintro ⟨hfits, hline⟩ doc _ text hmem hcontains
    exact ⟨hfits, text, hmem, (Text.resembles_self_iff.2 hline).mono hcontains⟩

end Condition

/-! ### Notes -/

namespace NotesByLine

/-- A note with some lines. -/
def note (lines : List String) : Document :=
  [("lines", .array (lines.map fun line => .document [("text", .string line)]))]

/-- A hyphen is found as such, and a blank is found in its place. -/
theorem hyphenated_found :
    isOperatorKey "lines.text" = false ∧ '\x7b' ∉ "well-known".toList ∧
      Admits [("lines.text", (Condition.read (Condition.including "well-known")).compile none)]
        (note ["a", "not well-known"]) 0 ∧
      Admits [("lines.text", (Condition.read (Condition.including "well-known")).compile none)]
        (note ["b", "The Well Known"]) 0 := by
  have hpath : isOperatorKey "lines.text" = false := by decide
  have hs : '\x7b' ∉ "well-known".toList := by decide
  have hfits : Condition.Includable "well-known" := Condition.includable_of_charge (by decide +kernel)
  obtain ⟨-, hadmits, hcontained⟩ := Condition.finds_included_iff hpath hs none
  refine ⟨hpath, hs, hcontained.2 ⟨hfits, by decide⟩ _ 0 "not well-known" ?_ ?_,
    (hadmits _ 0).2 ⟨hfits, "The Well Known", ?_, "Well Known".toList, ?_, ?_⟩⟩
  · exact List.mem_cons_of_mem _ (List.mem_singleton_self _)
  · decide
  · exact List.mem_cons_of_mem _ (List.mem_singleton_self _)
  · decide
  · decide +kernel

/-- A substring with a line feed is not found in itself. -/
theorem lines_missed :
    isOperatorKey "text" = false ∧ '\x7b' ∉ "a\nb".toList ∧ '\x7d' ∉ "a\nb".toList ∧
      Value.string "a\nb" ∈ valuesAt [("text", .string "a\nb")] "text" ∧
      "a\nb".toList <:+: "a\nb".toList ∧
      Readable [("text", (Condition.read (Condition.including "a\nb")).compile none)] ∧
      ¬Admits [("text", (Condition.read (Condition.including "a\nb")).compile none)]
        [("text", .string "a\nb")] 0 := by
  have hpath : isOperatorKey "text" = false := by decide
  have hs : '\x7b' ∉ "a\nb".toList := by decide
  have hfits : Condition.Includable "a\nb" := Condition.includable_of_charge (by decide +kernel)
  have hvalues : valuesAt [("text", .string "a\nb")] "text" = [Value.string "a\nb"] := by rfl
  refine ⟨hpath, hs, by decide, hvalues ▸ List.mem_singleton_self _, List.infix_refl _,
    (Condition.readable_including_iff hpath hs none).2 hfits, ?_⟩
  rw [Condition.admits_including_iff hpath hs none, hvalues]
  rintro ⟨-, text, htext, hlike⟩
  rw [List.mem_singleton, Value.string.injEq] at htext
  rw [htext] at hlike
  exact Text.resembles_self_iff.1 hlike (by decide)

end NotesByLine

end DocQuery
