import DocQuery.Proofs.Filter.Normalized
import DocQuery.Proofs.Text.Lowercase

/-!
# Normal forms of texts

A normal form consists of letters and numbers in lower case, but a capital I with a dot above leaves its dot
behind (`Search.mem_normalize`).  Normalizing once more takes the dots away and changes nothing else
(`Search.toList_normalize_normalize`).  So a search that is given a normal form asks for just that text only if
there is no dot in it; and the text is still found where it is stored as long as no dot is inside of it
(`Compiler.normalized_again`).
-/

namespace DocQuery

open Test

/-! ### What a filter keeps as one stretch -/

section Kept

variable {α : Type} {p : α → Bool} {l : List α}

/-- The kept elements are the first ones if none stands behind one that is dropped. -/
theorem filter_prefix_iff : l.filter p <+: l ↔ l.Pairwise fun a b => p b = true → p a = true := by
  induction l with
  | nil => simp
  | cons a l ih =>
    rw [List.pairwise_cons]
    by_cases ha : p a = true
    · rw [List.filter_cons_of_pos ha, List.cons_prefix_cons, ih]
      simp [ha]
    · rw [List.filter_cons_of_neg ha]
      constructor
      · intro h
        have hnone : l.filter p = [] := by
          rcases List.prefix_cons_iff.1 h with hnil | ⟨t, ht, -⟩
          · exact hnil
          · have hmem : a ∈ l.filter p := ht ▸ List.mem_cons_self
            exact absurd (List.mem_filter.1 hmem).2 ha
        rw [List.filter_eq_nil_iff] at hnone
        exact ⟨fun b hb hkept => absurd hkept (hnone b hb),
          List.pairwise_of_forall_mem_list fun _ _ b hb hkept => absurd hkept (hnone b hb)⟩
      · rintro ⟨hfront, -⟩
        have hnone : l.filter p = [] := List.filter_eq_nil_iff.2 fun b hb hkept => ha (hfront b hb hkept)
        rw [hnone]
        exact List.nil_prefix

/-- Where the first element is kept, the kept ones stand together only at the beginning. -/
theorem filter_infix_iff_prefix (h : ∀ a ∈ l.head?, p a = true) : l.filter p <:+: l ↔ l.filter p <+: l := by
  refine ⟨?_, List.IsPrefix.isInfix⟩
  rintro ⟨front, behind, hl⟩
  have htwice : (l.filter p).filter p = l.filter p :=
    List.filter_eq_self.2 fun _ ha => (List.mem_filter.1 ha).2
  have hkept : (front ++ l.filter p ++ behind).filter p = l.filter p := congrArg (List.filter p) hl
  rw [List.filter_append, List.filter_append, htwice] at hkept
  have hfront : front.filter p = [] := by
    have hlength := congrArg List.length hkept
    simp only [List.length_append] at hlength
    exact List.length_eq_zero_iff.1 (by omega)
  cases front with
  | nil => exact ⟨behind, hl⟩
  | cons a front =>
    have hhead : a ∈ l.head? := by
      rw [← hl]
      rfl
    rw [List.filter_cons_of_pos (h a hhead)] at hfront
    cases hfront

end Kept

namespace Search

open Text

variable {s stored : String} {c : Char} {fields : List String} {doc : Document}

/-! ### The characters of a normal form -/

theorem mem_normalize (h : c ∈ (normalize s).toList) : IsLower c ∨ c = dotAbove := by
  rw [toList_normalize] at h
  obtain ⟨source, hsource, hc⟩ := List.mem_flatMap.1 h
  obtain ⟨-, halpha⟩ := List.mem_filter.1 hsource
  by_cases hdot : source = dottedI
  · rw [hdot, lowerChar_dottedI] at hc
    rcases List.mem_pair.1 hc with rfl | rfl
    · exact .inl isLower_i
    · exact .inr rfl
  · obtain ⟨form, hlower, hform⟩ := exists_lowerChar_eq hdot halpha
    rw [hlower, List.mem_singleton] at hc
    exact .inl (hc ▸ hform)

theorem isAlphanumeric_iff_of_mem (h : c ∈ (normalize s).toList) :
    isAlphanumeric c = true ↔ c ≠ dotAbove := by
  refine ⟨?_, fun hne => ((mem_normalize h).resolve_right hne).alphanumeric⟩
  rintro halpha rfl
  exact not_isAlphanumeric_dotAbove halpha

theorem count_dotAbove_lowerChar (halpha : isAlphanumeric c = true) :
    (lowerChar c).count dotAbove = [c].count dottedI := by
  by_cases hdot : c = dottedI
  · rw [hdot, lowerChar_dottedI]
    rfl
  · obtain ⟨form, hlower, hform⟩ := exists_lowerChar_eq hdot halpha
    have hne : form ≠ dotAbove := fun heq => not_isAlphanumeric_dotAbove (heq ▸ hform.alphanumeric)
    rw [hlower, List.count_singleton, List.count_singleton, if_neg (by simpa using hne),
      if_neg (by simpa using hdot)]

/-- Every capital I with a dot above leaves one dot behind. -/
theorem count_dotAbove_normalize (s : String) :
    (normalize s).toList.count dotAbove = s.toList.count dottedI := by
  rw [toList_normalize]
  induction s.toList with
  | nil => rfl
  | cons c cs ih =>
    rw [List.count_cons, ← List.count_singleton, Nat.add_comm]
    by_cases halpha : isAlphanumeric c = true
    · rw [List.filter_cons_of_pos halpha, List.flatMap_cons, List.count_append, ih,
        count_dotAbove_lowerChar halpha]
    · have hne : c ≠ dottedI := fun heq => halpha (heq ▸ isAlphanumeric_dottedI)
      rw [List.filter_cons_of_neg halpha, ih, List.count_singleton, if_neg (by simpa using hne), Nat.zero_add]

theorem dotAbove_mem_normalize_iff : dotAbove ∈ (normalize s).toList ↔ dottedI ∈ s.toList := by
  rw [← List.count_pos_iff, count_dotAbove_normalize, List.count_pos_iff]

theorem all_alphanumeric_iff :
    (∀ c ∈ (normalize s).toList, isAlphanumeric c = true) ↔ dottedI ∉ s.toList := by
  rw [← dotAbove_mem_normalize_iff]
  constructor
  · intro h hdot
    exact (isAlphanumeric_iff_of_mem hdot).1 (h _ hdot) rfl
  · intro h c hc
    exact (isAlphanumeric_iff_of_mem hc).2 fun heq => h (heq ▸ hc)

/-! ### Normalizing once more -/

/-- Normalizing once more keeps the letters and numbers as they are. -/
theorem toList_normalize_normalize (s : String) :
    (normalize (normalize s)).toList = (normalize s).toList.filter isAlphanumeric := by
  have hunchanged : ∀ c ∈ (normalize s).toList.filter isAlphanumeric, lowerChar c = [c] := fun c hc => by
    obtain ⟨hmem, halpha⟩ := List.mem_filter.1 hc
    exact ((mem_normalize hmem).resolve_right ((isAlphanumeric_iff_of_mem hmem).1 halpha)).unchanged
  rw [toList_normalize, List.flatMap_congr hunchanged, List.flatMap_singleton']

theorem normalize_normalize_eq_iff : normalize (normalize s) = normalize s ↔ dottedI ∉ s.toList := by
  rw [← String.toList_inj, toList_normalize_normalize, List.filter_eq_self, all_alphanumeric_iff]

/-- No capital I with a dot above stands in front of another letter or number. -/
def DottedLast (s : String) : Prop :=
  (s.toList.filter isAlphanumeric).Pairwise fun c _ => c ≠ dottedI

instance (s : String) : Decidable (DottedLast s) :=
  inferInstanceAs (Decidable (List.Pairwise _ _))

/-- The first character of a normal form is a letter or a number. -/
theorem isAlphanumeric_head_normalize (h : c ∈ (normalize s).toList.head?) : isAlphanumeric c = true := by
  rw [toList_normalize] at h
  cases hletters : s.toList.filter isAlphanumeric with
  | nil =>
    rw [hletters] at h
    cases h
  | cons source rest =>
    have hsource : source ∈ s.toList.filter isAlphanumeric := hletters ▸ List.mem_cons_self
    obtain ⟨form, more, hlower, hform⟩ := exists_lowerChar_eq_cons (List.mem_filter.1 hsource).2
    rw [hletters, List.flatMap_cons, hlower] at h
    obtain rfl : form = c := Option.some.inj h
    exact hform.alphanumeric

/-- A normal form contains what is left of it if no dot is inside of it. -/
theorem normalize_normalize_infix_iff :
    (normalize (normalize s)).toList <:+: (normalize s).toList ↔ DottedLast s := by
  have hown : ∀ c ∈ s.toList.filter isAlphanumeric,
      (lowerChar c).Pairwise fun a b => isAlphanumeric b = true → isAlphanumeric a = true := fun c hc => by
    by_cases hdot : c = dottedI
    · rw [hdot, lowerChar_dottedI, List.pairwise_pair]
      exact fun _ => isLower_i.alphanumeric
    · obtain ⟨form, hlower, -⟩ := exists_lowerChar_eq hdot (List.mem_filter.1 hc).2
      rw [hlower]
      exact List.pairwise_singleton _ _
  rw [toList_normalize_normalize, filter_infix_iff_prefix fun c => isAlphanumeric_head_normalize,
    filter_prefix_iff, toList_normalize, List.pairwise_flatMap, and_iff_right hown, DottedLast]
  refine List.Pairwise.iff_of_mem fun {a b} ha hb => ?_
  constructor
  · rintro h rfl
    obtain ⟨form, rest, hlower, hform⟩ := exists_lowerChar_eq_cons (List.mem_filter.1 hb).2
    have hdot := h dotAbove (List.mem_pair.2 (.inr rfl)) form (hlower ▸ List.mem_cons_self) hform.alphanumeric
    exact absurd hdot not_isAlphanumeric_dotAbove
  · intro hne x hx y _ _
    obtain ⟨form, hlower, hform⟩ := exists_lowerChar_eq hne (List.mem_filter.1 ha).2
    rw [hlower, List.mem_singleton] at hx
    exact hx ▸ hform.alphanumeric

/-! ### Stored normal forms -/

/-- A text stands at one of the fields of a document, and no other text at any of them. -/
structure StoredAlone (fields : List String) (stored : String) (doc : Document) : Prop where
  stands : ∃ field ∈ fields, Value.string stored ∈ valuesAt doc field
  alone : ∀ field ∈ fields, ∀ s, Value.string s ∈ valuesAt doc field → s = stored

theorem StoredAlone.foundAt_iff (h : StoredAlone fields stored doc) (needle : String) :
    FoundAt fields needle doc ↔ needle.toList <:+: stored.toList := by
  constructor
  · rintro ⟨field, hfield, s, hs, hcontains⟩
    exact h.alone field hfield s hs ▸ hcontains
  · intro hcontains
    obtain ⟨field, hfield, hstored⟩ := h.stands
    exact ⟨field, hfield, stored, hstored, hcontains⟩

theorem normalizedClause_injective (hfields : fields ≠ []) : Function.Injective (normalizedClause fields) := by
  obtain ⟨first, rest, rfl⟩ := List.exists_cons_of_ne_nil hfields
  intro needle other h
  simp only [normalizedClause, List.map_cons, Clause.any.injEq, List.cons.injEq, Clause.field.injEq,
    Value.document.injEq, Prod.mk.injEq, Value.string.injEq] at h
  exact Pattern.escape_injective h.1.2.1.2

end Search

/-! ### Requests -/

theorem Filter.addAll_ne_self (filter : Filter) (clause : Clause) : filter.addAll clause ≠ filter := by
  intro h
  have hlength := congrArg (fun filter => filter.all.length) h
  simp [Filter.addAll] at hlength

theorem Filter.addAll_injective (filter : Filter) : Function.Injective filter.addAll := by
  intro clause other h
  have hall : filter.all ++ [clause] = filter.all ++ [other] := congrArg Filter.all h
  simpa using hall

namespace Compiler

open Search

variable {c : Compiler} {request : Request} {needle text : String} {resolved : ResolvedIds}
  {doc : Document} {relevance : Nat}

/-- The filter of a request, with a search for this text as it is. -/
def searching (c : Compiler) (request : Request) (needle : String) : Filter :=
  if needle = "" then c.unsearched request
  else (c.unsearched request).addAll (normalizedClause c.collection.options.searchFields needle)

theorem filterOf_eq_searching (hfields : c.collection.options.searchFields ≠ [])
    (hrequest : request.get? c.collection.options.searchKey = some text) :
    c.filterOf request = c.searching request (normalize text) := filterOf_of_search hfields hrequest

theorem searching_injective (hfields : c.collection.options.searchFields ≠ []) (request : Request) :
    Function.Injective (c.searching request) := by
  intro needle other h
  unfold searching at h
  split at h <;> split at h
  · next hneedle hother => rw [hneedle, hother]
  · exact absurd h.symm (Filter.addAll_ne_self _ _)
  · exact absurd h (Filter.addAll_ne_self _ _)
  · exact normalizedClause_injective hfields (Filter.addAll_injective _ h)

theorem admits_searching_iff (hfields : c.collection.options.searchFields ≠ [])
    (hpaths : ∀ field ∈ c.collection.options.searchFields, isOperatorKey field = false) :
    Admits ((c.searching request needle).toDocument resolved) doc relevance ↔
      Admits ((c.unsearched request).toDocument resolved) doc relevance ∧
        (needle ≠ "" → needle.utf8ByteSize ≤ Pattern.longestText ∧
          FoundAt c.collection.options.searchFields needle doc) := by
  rw [searching]
  split
  · next hempty => simp [hempty]
  · next hne =>
    rw [Filter.admits_addAll_iff, admits_normalizedClause_iff hfields hpaths]
    simp [hne]

/-- A search for its own normal form finds a document if no dot is inside of the form. -/
theorem admits_stored_iff (hfields : c.collection.options.searchFields ≠ [])
    (hrequest : request.get? c.collection.options.searchKey = some (normalize text))
    (hpaths : ∀ field ∈ c.collection.options.searchFields, isOperatorKey field = false)
    (hstored : StoredAlone c.collection.options.searchFields (normalize text) doc) :
    Admits ((c.filterOf request).toDocument resolved) doc relevance ↔
      Admits ((c.unsearched request).toDocument resolved) doc relevance ∧
        (normalize (normalize text)).utf8ByteSize ≤ Pattern.longestText ∧ DottedLast text := by
  rw [filterOf_eq_searching hfields hrequest, admits_searching_iff hfields hpaths, hstored.foundAt_iff,
    normalize_normalize_infix_iff]
  refine and_congr_right fun _ => ⟨fun h => ?_, fun h _ => h⟩
  by_cases hempty : normalize (normalize text) = ""
  · rw [← normalize_normalize_infix_iff, hempty]
    exact ⟨by decide, List.nil_infix⟩
  · exact h hempty

/-- **A normal form is its own normal form unless there is a dot in it.**  The only character of a normal form
that is no letter and no number is the combining dot, which stands there for each capital I with a dot above.
Normalizing once more takes the dots away and changes nothing else.  So a search that is given the normal form
of a text asks for just that form exactly if the text has no such capital; and a document which holds the
normal form and no other text is found by it exactly if no such capital stands in front of another letter or
number of the text. -/
theorem normalized_again (t : String) :
    ((∀ x ∈ (normalize t).toList, Text.isAlphanumeric x = true) ↔ Text.dottedI ∉ t.toList) ∧
    (normalize (normalize t) = normalize t ↔ Text.dottedI ∉ t.toList) ∧
    (∀ x ∈ (normalize t).toList, Text.isAlphanumeric x = true ↔ x ≠ Text.dotAbove) ∧
    (normalize t).toList.count Text.dotAbove = t.toList.count Text.dottedI ∧
    (normalize (normalize t)).toList = (normalize t).toList.filter Text.isAlphanumeric ∧
    ∀ (c : Compiler) (request : Request), c.collection.options.searchFields ≠ [] →
      request.get? c.collection.options.searchKey = some (normalize t) →
      (c.filterOf request = c.searching request (normalize t) ↔ Text.dottedI ∉ t.toList) ∧
      ((∀ field ∈ c.collection.options.searchFields, isOperatorKey field = false) →
        ∀ resolved doc relevance, StoredAlone c.collection.options.searchFields (normalize t) doc →
          (Admits ((c.filterOf request).toDocument resolved) doc relevance ↔
            Admits ((c.unsearched request).toDocument resolved) doc relevance ∧
              (normalize (normalize t)).utf8ByteSize ≤ Pattern.longestText ∧ DottedLast t)) := by
  refine ⟨all_alphanumeric_iff, normalize_normalize_eq_iff, fun _ => isAlphanumeric_iff_of_mem,
    count_dotAbove_normalize t, toList_normalize_normalize t, fun c request hfields hrequest => ⟨?_, ?_⟩⟩
  · rw [filterOf_eq_searching hfields hrequest, (searching_injective hfields request).eq_iff]
    exact normalize_normalize_eq_iff
  · exact fun hpaths _ _ _ => admits_stored_iff hfields hrequest hpaths

end Compiler

/-! ### Towns -/

namespace TownsBySlug

open Search

def collection : Collection := ⟨[], [], { Options.standard with searchFields := ["slug"] }⟩

def compiler : Compiler := ⟨[("towns", collection)], "towns", collection, []⟩

/-- A town with the normal form of its name. -/
def town (name : String) : Document := [("name", .string name), ("slug", .string (normalize name))]

/-- A search for the normal form of a name. -/
def request (name : String) : Request := [("$search", normalize name)]

theorem storedAlone_town (name : String) :
    StoredAlone compiler.collection.options.searchFields (normalize name) (town name) := by
  have hvalues : valuesAt (town name) "slug" = [Value.string (normalize name)] := rfl
  refine ⟨⟨"slug", List.mem_singleton_self _, hvalues ▸ List.mem_singleton_self _⟩, ?_⟩
  intro field hfield s hs
  obtain rfl := List.mem_singleton.1 hfield
  rw [hvalues, List.mem_singleton] at hs
  exact Value.string.inj hs

/-- The search asks for less than the slug, which is found all the same. -/
theorem eregli_found :
    compiler.collection.options.searchFields ≠ [] ∧
      (request "EREĞLİ").get? compiler.collection.options.searchKey = some (normalize "EREĞLİ") ∧
      (∀ field ∈ compiler.collection.options.searchFields, isOperatorKey field = false) ∧
      StoredAlone compiler.collection.options.searchFields (normalize "EREĞLİ") (town "EREĞLİ") ∧
      compiler.filterOf (request "EREĞLİ") ≠
        compiler.searching (request "EREĞLİ") (normalize "EREĞLİ") ∧
      Admits ((compiler.filterOf (request "EREĞLİ")).toDocument []) (town "EREĞLİ") 0 := by
  have hfields : compiler.collection.options.searchFields ≠ [] := by decide
  have hrequest : (request "EREĞLİ").get? compiler.collection.options.searchKey =
      some (normalize "EREĞLİ") := rfl
  have hpaths : ∀ field ∈ compiler.collection.options.searchFields, isOperatorKey field = false := by decide
  have hstored := storedAlone_town "EREĞLİ"
  have hsize : (normalize (normalize "EREĞLİ")).utf8ByteSize ≤ Pattern.longestText := by decide +kernel
  obtain ⟨-, -, -, -, -, hsearch⟩ := Compiler.normalized_again "EREĞLİ"
  obtain ⟨hexact, hfound⟩ := hsearch compiler (request "EREĞLİ") hfields hrequest
  refine ⟨hfields, hrequest, hpaths, hstored, fun h => hexact.1 h (by decide), ?_⟩
  exact (hfound hpaths [] _ 0 hstored).2 ⟨⟨_, rfl, rfl⟩, hsize, by decide +kernel⟩

/-- The dot stays in the slug, and the slug does not find its own town. -/
theorem izmir_missed :
    normalize "İzmir" = "i\u0307zmir" ∧ Text.isAlphanumeric '\u0307' = false ∧
      normalize (normalize "İzmir") = "izmir" ∧ normalize (normalize "İzmir") ≠ normalize "İzmir" ∧
      ¬Admits ((compiler.filterOf (request "İzmir")).toDocument []) (town "İzmir") 0 := by
  have hpaths : ∀ field ∈ compiler.collection.options.searchFields, isOperatorKey field = false := by decide
  refine ⟨by decide +kernel, by decide, by decide +kernel, by decide +kernel, fun h => ?_⟩
  obtain ⟨-, -, hlast⟩ :=
    (Compiler.admits_stored_iff (by decide) rfl hpaths (storedAlone_town "İzmir")).1 h
  exact absurd hlast (by decide +kernel)

end TownsBySlug

end DocQuery
