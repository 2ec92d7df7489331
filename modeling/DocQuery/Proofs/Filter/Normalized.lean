import DocQuery.Proofs.Filter.Terms

/-!
# Searching for normalized text

Normalizing goes character by character, so the normal form of a part of a text is a part of its normal form
(`Search.normalize_infix`), and blanks at the ends do not matter (`Search.normalize_trim`).  The clause of a
search for normalized text is passed where some text at one of the fields contains the normal form
(`Search.admits_normalizedClause_iff`), and a request adds this clause to its other ones
(`Compiler.searches_normalized`).
-/

namespace DocQuery

open Test

namespace Search

/-! ### Normal forms -/

theorem toList_normalize (s : String) :
    (normalize s).toList = (s.toList.filter Text.isAlphanumeric).flatMap Text.lowerChar := by
  rw [normalize, String.toList_ofList]

theorem normalize_append (s t : String) : normalize (s ++ t) = normalize s ++ normalize t := by
  rw [← String.toList_inj, String.toList_append, toList_normalize, toList_normalize, toList_normalize,
    String.toList_append, List.filter_append, List.flatMap_append]

/-- The normal form of a part of a text is a part of its normal form. -/
theorem normalize_infix {part s : String} (h : part.toList <:+: s.toList) :
    (normalize part).toList <:+: (normalize s).toList := by
  obtain ⟨before, behind, hs⟩ := h
  have hparts : s = String.ofList before ++ part ++ String.ofList behind := by
    simp [← String.toList_inj, ← hs]
  rw [hparts, normalize_append, normalize_append, String.toList_append, String.toList_append]
  exact ⟨_, _, rfl⟩

/-- Blanks at the ends of a text are not in its normal form. -/
theorem normalize_trim (s : String) : normalize (Text.trim s) = normalize s := by
  rw [normalize, Text.filter_trim, normalize]

/-! ### The clause -/

/-- The clause of a search for a normalized text. -/
def normalizedClause (fields : List String) (needle : String) : Clause :=
  .any (fields.map fun field => .field field (.document [("$regex", .string (Pattern.escape needle))]))

/-- Some text at one of the fields contains a normalized text. -/
def FoundAt (fields : List String) (needle : String) (doc : Document) : Prop :=
  ∃ field ∈ fields, ∃ s, Value.string s ∈ valuesAt doc field ∧ needle.toList <:+: s.toList

variable {path needle : String} {fields : List String} {resolved : ResolvedIds} {doc : Document}
  {relevance : Nat}

/-- A normalized text is asked for as it is. -/
theorem readField_normalized (hpath : isOperatorKey path = false) (test : Test) :
    readField path (.document [("$regex", .string (Pattern.escape needle))]) = .ok test ↔
      needle.utf8ByteSize ≤ Pattern.longestText ∧
        test = .finds path (Pattern.spelled (flagsOf "") needle) := by
  have hregex : isOperatorKey "$regex" = true := by decide
  have hcaseful : (flagsOf "").caseless = false := by decide
  have hpattern : readField path (.document [("$regex", .string (Pattern.escape needle))]) =
      readPattern path (Pattern.escape needle) "" := by
    have hone : readOperator path [("$regex", .string (Pattern.escape needle))] "$regex"
        (.string (Pattern.escape needle)) = (readPattern path (Pattern.escape needle) "").map some := by rfl
    rw [readField_of_field hpath, readCondition, if_pos hregex, readOperators, hone]
    cases readPattern path (Pattern.escape needle) "" <;> rfl
  rw [hpattern, readPattern_eq_ok_iff (Pattern.read_escape rfl needle), Pattern.fits_spelled_iff hcaseful]

theorem readable_normalizedClause_iff (hfields : fields ≠ [])
    (hpaths : ∀ field ∈ fields, isOperatorKey field = false) (needle : String) (resolved : ResolvedIds) :
    Readable ((normalizedClause fields needle).toDocument resolved) ↔
      needle.utf8ByteSize ≤ Pattern.longestText := by
  have hfield : ∀ field ∈ fields,
      (Readable [(field, .document [("$regex", .string (Pattern.escape needle))])] ↔
        needle.utf8ByteSize ≤ Pattern.longestText) := fun field hmem => by
    rw [readable_singleton_iff]
    simp only [readField_normalized (hpaths field hmem), exists_and_left, exists_eq, and_true]
  rw [normalizedClause, Clause.readable_any_iff, and_iff_right (by simpa using hfields), List.forall_mem_map]
  obtain ⟨first, rest, rfl⟩ := List.exists_cons_of_ne_nil hfields
  exact ⟨fun h => (hfield first List.mem_cons_self).1 (h first List.mem_cons_self),
    fun hsize field hmem => (hfield field hmem).2 hsize⟩

/-- The clause is passed where a text at one of the fields contains the normalized text. -/
theorem admits_normalizedClause_iff (hfields : fields ≠ [])
    (hpaths : ∀ field ∈ fields, isOperatorKey field = false) (needle : String) (resolved : ResolvedIds)
    (doc : Document) (relevance : Nat) :
    Admits ((normalizedClause fields needle).toDocument resolved) doc relevance ↔
      needle.utf8ByteSize ≤ Pattern.longestText ∧ FoundAt fields needle doc := by
  have hcaseful : (flagsOf "").caseless = false := by decide
  have hfield : ∀ field ∈ fields,
      (Admits [(field, .document [("$regex", .string (Pattern.escape needle))])] doc relevance ↔
        needle.utf8ByteSize ≤ Pattern.longestText ∧
          ∃ s, Value.string s ∈ valuesAt doc field ∧ needle.toList <:+: s.toList) := fun field hmem => by
    rw [admits_singleton_iff]
    simp only [readField_normalized (hpaths field hmem), and_assoc, exists_and_left, exists_eq_left,
      holds_finds_iff, Pattern.found_spelled_of_caseful_iff hcaseful]
  have hread := readable_normalizedClause_iff hfields hpaths needle resolved
  rw [normalizedClause, Clause.readable_any_iff, and_iff_right (by simpa using hfields)] at hread
  rw [normalizedClause, Clause.admits_any_iff, hread]
  refine and_congr_right fun hsize => ?_
  constructor
  · rintro ⟨_, hclause, hadmits⟩
    obtain ⟨field, hmem, rfl⟩ := List.mem_map.1 hclause
    exact ⟨field, hmem, ((hfield field hmem).1 hadmits).2⟩
  · rintro ⟨field, hmem, hfound⟩
    exact ⟨_, List.mem_map_of_mem hmem, (hfield field hmem).2 ⟨hsize, hfound⟩⟩

/-- A stored normal form of a text is found by every part of the text. -/
theorem foundAt_of_part {field part s : String} (hmem : field ∈ fields)
    (hstored : Value.string (normalize s) ∈ valuesAt doc field) (hpart : part.toList <:+: s.toList) :
    FoundAt fields (normalize part) doc :=
  ⟨field, hmem, normalize s, hstored, normalize_infix hpart⟩

end Search

/-! ### Requests -/

/-- One more clause that has to hold. -/
theorem Filter.admits_addAll_iff (filter : Filter) (clause : Clause) (resolved : ResolvedIds)
    (doc : Document) (relevance : Nat) :
    Admits ((filter.addAll clause).toDocument resolved) doc relevance ↔
      Admits (filter.toDocument resolved) doc relevance ∧
        Admits (clause.toDocument resolved) doc relevance := by
  have hparts := fun filter : Filter =>
    filter.reads_toDocument_iff resolved (conjunctive_holds doc relevance)
  have hall : ∀ clauses : List Clause, (∀ other ∈ clauses ++ [clause],
      Admits (other.toDocument resolved) doc relevance) ↔
        (∀ other ∈ clauses, Admits (other.toDocument resolved) doc relevance) ∧
          Admits (clause.toDocument resolved) doc relevance := fun clauses => by
    rw [List.forall_mem_append, List.forall_mem_singleton]
  refine (hparts _).trans (Iff.trans ?_ (and_congr_left fun _ => (hparts filter).symm))
  exact (and_congr_left fun _ => hall filter.all).trans and_right_comm

namespace Compiler

variable {c : Compiler} {request : Request} {x : String}

/-- The filter of a request but for its search for normalized text. -/
def unsearched (c : Compiler) (request : Request) : Filter :=
  let filter := request.foldl c.addPair .empty
  match option? request c.collection.options.queryKey with
  | some query => Search.freeText query (c.catalog.hasTextIndex c.name) c.collection filter
  | none => filter

theorem filterOf_eq_unsearched (c : Compiler) (request : Request) :
    c.filterOf request =
      match option? request c.collection.options.searchKey with
      | some asked => Search.normalized asked c.collection (c.unsearched request)
      | none => c.unsearched request := rfl

/-- A search adds its clause, unless nothing is left of the text. -/
theorem filterOf_of_search (hfields : c.collection.options.searchFields ≠ [])
    (hrequest : request.get? c.collection.options.searchKey = some x) :
    c.filterOf request =
      if Search.normalize x = "" then c.unsearched request
      else (c.unsearched request).addAll
        (Search.normalizedClause c.collection.options.searchFields (Search.normalize x)) := by
  have hnormalized : ∀ asked filter, Search.normalized asked c.collection filter =
      if Search.normalize asked = "" then filter
      else filter.addAll
        (Search.normalizedClause c.collection.options.searchFields (Search.normalize asked)) := by
    intro asked filter
    rw [Search.normalized]
    refine ite_congr rfl (fun _ => rfl) fun _ => ?_
    split
    · next hnone => exact absurd hnone hfields
    · rfl
  rw [filterOf_eq_unsearched, option?, hrequest, Option.map_some]
  by_cases htrim : Text.trim x = ""
  · have hempty : Search.normalize x = "" := by
      rw [← Search.normalize_trim, htrim]
      rfl
    rw [htrim, if_pos hempty]
    rfl
  · rw [Option.filter_some, if_pos (by simpa using htrim)]
    dsimp only
    rw [hnormalized, Search.normalize_trim]

/-- The clause of a search in the search fields of the collection. -/
def searchClause (c : Compiler) (x : String) : Clause :=
  Search.normalizedClause c.collection.options.searchFields (Search.normalize x)

/-- **A search finds the normalized parts of texts, and nothing else.**  A search adds nothing to a request
if its text has no normal form, and otherwise one clause that has to hold besides the other ones.  The clause
can be read if the normal form is not too long for a pattern, and then a document passes it exactly if some
text at a search field contains the normal form.  So a document that holds the normal form of a text there
is found by every part of that text. -/
theorem searches_normalized (hfields : c.collection.options.searchFields ≠ [])
    (hpaths : ∀ field ∈ c.collection.options.searchFields, isOperatorKey field = false)
    (hrequest : request.get? c.collection.options.searchKey = some x) :
    (Search.normalize x = "" → c.filterOf request = c.unsearched request) ∧
    (Search.normalize x ≠ "" →
      c.filterOf request = (c.unsearched request).addAll (c.searchClause x) ∧
      ∀ resolved,
        (Readable ((c.searchClause x).toDocument resolved) ↔
          (Search.normalize x).utf8ByteSize ≤ Pattern.longestText) ∧
        ∀ doc relevance,
          (Admits ((c.filterOf request).toDocument resolved) doc relevance ↔
            Admits ((c.unsearched request).toDocument resolved) doc relevance ∧
              Admits ((c.searchClause x).toDocument resolved) doc relevance) ∧
          (Admits ((c.searchClause x).toDocument resolved) doc relevance ↔
            (Search.normalize x).utf8ByteSize ≤ Pattern.longestText ∧
              ∃ field ∈ c.collection.options.searchFields, ∃ s, Value.string s ∈ valuesAt doc field ∧
                (Search.normalize x).toList <:+: s.toList) ∧
          ((Search.normalize x).utf8ByteSize ≤ Pattern.longestText →
            ∀ t, x.toList <:+: t.toList → ∀ field ∈ c.collection.options.searchFields,
              Value.string (Search.normalize t) ∈ valuesAt doc field →
                Admits ((c.searchClause x).toDocument resolved) doc relevance)) := by
  have hfilter := filterOf_of_search hfields hrequest
  refine ⟨fun hempty => hfilter.trans (if_pos hempty), fun hne => ?_⟩
  rw [if_neg hne] at hfilter
  refine ⟨hfilter, fun resolved => ?_⟩
  refine ⟨Search.readable_normalizedClause_iff hfields hpaths _ resolved, fun doc relevance => ?_⟩
  have hadmits :=
    Search.admits_normalizedClause_iff hfields hpaths (Search.normalize x) resolved doc relevance
  refine ⟨?_, hadmits, fun hsize t hpart field hmem hstored => ?_⟩
  · rw [hfilter]
    exact Filter.admits_addAll_iff _ _ resolved doc relevance
  · exact hadmits.2 ⟨hsize, Search.foundAt_of_part hmem hstored hpart⟩

end Compiler

/-! ### Posts -/

namespace PostsBySlug

def collection : Collection := ⟨[], [], { Options.standard with searchFields := ["slug", "former.slug"] }⟩

def compiler : Compiler := ⟨[("posts", collection)], "posts", collection, []⟩

def request : Request := [("$search", " Well-Known ")]

/-- A post that had two other names before. -/
def renamed : Document :=
  [("slug", .string "news"), ("former", .array [.document [("slug", .string "facts")],
    .document [("slug", .string "anotsowellknownfact")]])]

/-- Part of a former name is found, and a name of two parts with a blank is not. -/
theorem former_name_found :
    compiler.collection.options.searchFields ≠ [] ∧
      (∀ field ∈ compiler.collection.options.searchFields, isOperatorKey field = false) ∧
      request.get? compiler.collection.options.searchKey = some " Well-Known " ∧
      Admits ((compiler.filterOf request).toDocument []) renamed 0 ∧
      ¬Admits ((compiler.filterOf request).toDocument []) [("slug", .string "well known")] 0 := by
  have hfields : compiler.collection.options.searchFields ≠ [] := by decide
  have hpaths : ∀ field ∈ compiler.collection.options.searchFields, isOperatorKey field = false := by decide
  have hrequest : request.get? compiler.collection.options.searchKey = some " Well-Known " := by decide
  have hnormal : Search.normalize " Well-Known " = "wellknown" := by decide +kernel
  have hne : Search.normalize " Well-Known " ≠ "" := by
    rw [hnormal]
    decide
  have hsize : (Search.normalize " Well-Known ").utf8ByteSize ≤ Pattern.longestText := by
    rw [hnormal]
    decide
  have hpart : " Well-Known ".toList <:+: "A not so Well-Known fact".toList := by decide
  have hstored : Value.string (Search.normalize "A not so Well-Known fact") ∈
      valuesAt renamed "former.slug" := by
    have htext : Search.normalize "A not so Well-Known fact" = "anotsowellknownfact" := by decide +kernel
    rw [htext]
    exact List.mem_cons_of_mem _ (List.mem_singleton_self _)
  have hunsearched : compiler.unsearched request = .empty := by rfl
  obtain ⟨-, hsearch⟩ := Compiler.searches_normalized hfields hpaths hrequest
  obtain ⟨-, hfilter⟩ := hsearch hne
  obtain ⟨hwhole, -, hfound⟩ := (hfilter []).2 renamed 0
  obtain ⟨hother, hexact, -⟩ := (hfilter []).2 [("slug", .string "well known")] 0
  rw [hunsearched] at hwhole hother
  refine ⟨hfields, hpaths, hrequest, hwhole.2 ⟨⟨_, rfl, rfl⟩, ?_⟩, fun h => ?_⟩
  · exact hfound hsize _ hpart "former.slug" (by decide) hstored
  · obtain ⟨-, field, hfield, s, hs, hcontains⟩ := hexact.1 (hother.1 h).2
    rw [hnormal] at hcontains
    rcases List.mem_pair.1 hfield with rfl | rfl
    · obtain rfl : s = "well known" := Value.string.inj (List.mem_singleton.1 hs)
      exact absurd hcontains (by decide)
    · cases hs

end PostsBySlug

end DocQuery
