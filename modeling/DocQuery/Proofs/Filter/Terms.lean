import DocQuery.Proofs.Filter.Alternatives
import DocQuery.Proofs.Pattern.Literal
import DocQuery.Proofs.Query.ForeignKeys
import DocQuery.Proofs.Text.Blank

/-!
# Terms in the texts at a field

A free-text query asks at a field that each of its terms is contained, without regard to case, in some text
there (`Search.ContainsEach`); different terms may be in different texts.  For a field behind a reference
this is asked of the documents of the other collection, and their ids are looked for where the reference
stands (`Search.FieldContains`).  The clause that the query adds for the field means just that
(`Search.holds_fieldClause_iff`), whether it is written with one condition or with several.
-/

namespace DocQuery

open Test

/-! ### Terms in the texts at a path -/

/-- A path names a field if its first key does. -/
theorem Test.isOperatorKey_of_keys {path : String}
    (h : ∀ key ∈ Path.ofText path, isOperatorKey key = false) : isOperatorKey path = false := by
  unfold Path.ofText at h
  unfold isOperatorKey at h ⊢
  cases hpath : path.toList with
  | nil => rfl
  | cons c rest =>
    rw [hpath, List.splitOn_cons_eq_if_modifyHead] at h
    split at h
    · next hdot =>
      rw [beq_iff_eq.1 hdot]
      rfl
    · obtain ⟨first, others, hsplit⟩ := List.exists_cons_of_ne_nil (List.splitOn_ne_nil '.' rest)
      simpa [hsplit] using h (String.ofList (c :: first)) (by simp [hsplit])

namespace Search

/-- Each of the terms is contained, without regard to case, in some text at a path. -/
def ContainsEach (terms : List String) (doc : Document) (path : String) : Prop :=
  ∀ term ∈ terms, ∃ s, Value.string s ∈ valuesAt doc path ∧ Text.Contains s term

/-- The automata of the terms are not too large. -/
def Searchable (terms : List String) : Prop :=
  ∀ term ∈ terms, (Pattern.spelled (flagsOf "i") term).fits = true

instance (terms : List String) : Decidable (Searchable terms) :=
  inferInstanceAs (Decidable (∀ term ∈ terms, _ = true))

/-- The condition that a pattern is found without regard to case. -/
abbrev containing (pattern : String) : Value :=
  .document [("$regex", .string pattern), ("$options", .string "i")]

variable {path term : String} {terms : List String} {doc : Document} {relevance : Nat}
  {resolved : ResolvedIds}

theorem readField_containing (hpath : isOperatorKey path = false) (pattern : String) :
    readField path (containing pattern) = readPattern path pattern "i" := by
  have hregex : isOperatorKey "$regex" = true := by decide
  rw [readField_of_field hpath, readCondition, if_pos hregex]
  have hread : readOperator path [("$regex", .string pattern), ("$options", .string "i")] "$regex"
      (.string pattern) = (readPattern path pattern "i").map some := by rfl
  rw [readOperators, hread]
  cases readPattern path pattern "i" <;> rfl

/-- A pattern is looked for unless its automaton is too large. -/
theorem readPattern_eq_ok_iff {written options : String} {pattern : Pattern} {test : Test}
    (h : Pattern.read (flagsOf options) written = if pattern.fits then some pattern else none) :
    readPattern path written options = .ok test ↔ pattern.fits = true ∧ test = .finds path pattern := by
  rw [readPattern, h]
  cases pattern.fits with
  | true => simpa using eq_comm
  | false => simp [fault]

/-- An escaped term is asked for by its pattern. -/
theorem readField_escape (hpath : isOperatorKey path = false)
    (h : (Pattern.spelled (flagsOf "i") term).fits = true) :
    readField path (containing (Pattern.escape term)) =
      .ok (.finds path (Pattern.spelled (flagsOf "i") term)) := by
  rw [readField_containing hpath, readPattern_eq_ok_iff (Pattern.read_escape rfl term)]
  exact ⟨h, rfl⟩

/-- A pattern is found if some text at the path has it. -/
theorem holds_finds_iff {pattern : Pattern} :
    (Test.finds path pattern).holds doc relevance = true ↔
      ∃ s, Value.string s ∈ valuesAt doc path ∧ pattern.found s = true := by
  have hvalue : ∀ value, patternHolds pattern value = true ↔
      ∃ s, value = .string s ∧ pattern.found s = true := by
    rintro ⟨⟩ <;> simp [patternHolds]
  rw [holds, List.any_eq_true]
  simp only [hvalue]
  constructor
  · rintro ⟨_, hmem, s, rfl, hs⟩
    exact ⟨s, hmem, hs⟩
  · rintro ⟨s, hmem, hs⟩
    exact ⟨_, hmem, s, rfl, hs⟩

theorem admits_containing_iff (hpath : isOperatorKey path = false)
    (h : (Pattern.spelled (flagsOf "i") term).fits = true) :
    Admits [(path, containing (Pattern.escape term))] doc relevance ↔
      ∃ s, Value.string s ∈ valuesAt doc path ∧ Text.Contains s term := by
  have hcaseless : (flagsOf "i").caseless = true := by decide
  have hfound := Pattern.found_spelled_iff hcaseless rfl term
  rw [admits_singleton_iff, readField_escape hpath h]
  simp only [Except.ok.injEq, exists_eq_left', holds_finds_iff, hfound]

theorem readable_containsAll (hpath : isOperatorKey path = false) (hterms : terms ≠ [])
    (h : Searchable terms) :
    Readable ((containsAll path (terms.map Pattern.escape)).toDocument resolved) := by
  rw [containsAll, Clause.readable_all_iff]
  refine ⟨by simpa using hterms, ?_⟩
  simp only [List.map_map, List.forall_mem_map]
  exact fun term hterm => readable_singleton_iff.2 ⟨_, readField_escape hpath (h term hterm)⟩

theorem admits_containsAll_iff (hpath : isOperatorKey path = false) (hterms : terms ≠ [])
    (h : Searchable terms) :
    Admits ((containsAll path (terms.map Pattern.escape)).toDocument resolved) doc relevance ↔
      ContainsEach terms doc path := by
  rw [containsAll, Clause.admits_all_iff, and_iff_right (by simpa using hterms)]
  simp only [List.map_map, List.forall_mem_map]
  exact forall₂_congr fun term hterm => admits_containing_iff hpath (h term hterm)

/-- Every collection accepts these conditions. -/
theorem accepts_containsAll (base : StoredCollection) (hpath : isOperatorKey path = false)
    (hterms : terms ≠ []) (h : Searchable terms) :
    base.Accepts ((containsAll path (terms.map Pattern.escape)).toDocument resolved) := by
  have hread : Readable ((containsAll path (terms.map Pattern.escape)).toDocument resolved) :=
    readable_containsAll hpath hterms h
  exact StoredCollection.accepts_iff.2 ⟨hread, .inl (Clause.searchesNoText_words path _ resolved hread)⟩

/-! ### Fields -/

/-- What a free-text query asks for at a field: all terms in the texts there, in the document itself or,
for a field behind a reference, in a document of the store whose `_id` is where the reference stands. -/
def FieldContains (collection : Collection) (store : Store) (terms : List String) (doc : Document)
    (field : String) : Prop :=
  match collection.foreign? field with
  | some (here, target, rest) => ∃ found, store.find? target = some found ∧
    ∃ other ∈ found.docs, ContainsEach terms other rest ∧
      ∃ id, other.get? "_id" = some id ∧ equalsAny doc here id = true
  | none => ContainsEach terms doc field

/-- The clause that a free-text query adds for a field, but for its slot. -/
def fieldClause (collection : Collection) (patterns : List String) (field : String) : Clause :=
  match collection.foreign? field with
  | some (here, target, rest) =>
    .joined ⟨0, here, target, (containsAll rest patterns).toDocument []⟩
  | none => containsAll field patterns

theorem unslotted_containsAll (path : String) (patterns : List String) :
    (containsAll path patterns).unslotted = containsAll path patterns := by
  rw [containsAll, Clause.unslotted, Clause.mapJoins, Clause.mapJoinsOf_eq_map, List.map_map]
  rfl

theorem addField_empty (collection : Collection) (patterns : List String) (field : String) :
    (addField collection patterns .empty field).unslotted =
      ⟨[], [fieldClause collection patterns field], none, 0⟩ := by
  unfold addField fieldClause
  cases collection.foreign? field with
  | none =>
    exact congrArg (fun clause => (⟨[], [clause], none, 0⟩ : Filter)) (unslotted_containsAll field patterns)
  | some reference =>
    obtain ⟨here, target, rest⟩ := reference
    rfl

/-- A free-text query adds one alternative for each field, and nothing else. -/
theorem freeText_empty {query : String} (hwords : Text.words query ≠ []) (collection : Collection) :
    (freeText query false collection .empty).unslotted.all = [] ∧
      (freeText query false collection .empty).unslotted.any = (queryFields collection.options).map
        (fieldClause collection ((Text.words query).map Pattern.escape)) := by
  obtain ⟨term, rest, hterms⟩ := List.exists_cons_of_ne_nil hwords
  have hfold : freeText query false collection .empty = (queryFields collection.options).foldl
      (addField collection ((Text.words query).map Pattern.escape)) .empty := by
    rw [freeText, hterms]
    rfl
  rw [hfold, Filter.unslotted_foldl (appends_addField collection _), Filter.all_foldl_append,
    Filter.any_foldl_append]
  simp only [addField_empty, List.flatMap_map]
  exact ⟨List.flatMap_eq_nil_iff.2 fun _ _ => rfl, List.map_eq_flatMap.symm⟩

/-- A search for normalized text adds no alternative and no joined clause. -/
theorem normalized_adds (text : String) (collection : Collection) (filter : Filter) :
    (normalized text collection filter).unslotted.any = filter.unslotted.any ∧
      ∀ clause ∈ (normalized text collection filter).unslotted.all,
        clause ∈ filter.unslotted.all ∨ clause.joins = [] := by
  unfold normalized
  dsimp only
  split
  · exact ⟨rfl, fun _ hc => .inl hc⟩
  · split
    · exact ⟨rfl, fun _ hc => .inl hc⟩
    · refine ⟨rfl, List.forall_mem_map.2 fun clause hc => ?_⟩
      rcases List.mem_append.1 hc with hc | hc
      · exact .inl (List.mem_map_of_mem hc)
      · have hown : clause.Own collection := List.mem_singleton.1 hc ▸ .normalized _ _
        rw [Clause.joins_unslotted, Filter.joins_of_own hown]
        exact .inr rfl

section Meaning

variable {collection : Collection} {field : String} {store : Store}

theorem holds_fieldClause_iff (hfield : ∀ key ∈ Path.ofText field, isOperatorKey key = false)
    (hterms : terms ≠ []) (h : Searchable terms) :
    (fieldClause collection (terms.map Pattern.escape) field).Holds (JoinedClause.Holds store doc) doc
      relevance ↔ FieldContains collection store terms doc field := by
  unfold fieldClause FieldContains
  cases hforeign : collection.foreign? field with
  | none =>
    have hpath := isOperatorKey_of_keys hfield
    have hread : Readable ((containsAll field (terms.map Pattern.escape)).toDocument []) :=
      readable_containsAll hpath hterms h
    have hadmits : Admits ((containsAll field (terms.map Pattern.escape)).toDocument []) doc relevance ↔
        ContainsEach terms doc field := admits_containsAll_iff hpath hterms h
    dsimp only
    rw [← hadmits, Clause.admits_toDocument_iff _ hread]
    exact Clause.holds_congr _ (by simp [Filter.joins_containsAll])
  | some reference =>
    obtain ⟨here, target, rest⟩ := reference
    have hrest : isOperatorKey rest = false := by
      rw [(Collection.foreign?_eq_some hforeign).2.1, List.forall_mem_append] at hfield
      exact isOperatorKey_of_keys hfield.2
    dsimp only
    rw [Clause.Holds, JoinedClause.Holds]
    refine exists_congr fun found => and_congr_right fun _ => exists_congr fun other =>
      and_congr_right fun _ => and_congr_left fun _ => ?_
    rw [StoredCollection.finds_iff_admits (accepts_containsAll found hrest hterms h),
      admits_containsAll_iff hrest hterms h]

/-- The clause for a field is accepted if the collection that its path leads to is there. -/
theorem accepted_fieldClause (base : StoredCollection)
    (hfield : ∀ key ∈ Path.ofText field, isOperatorKey key = false) (hterms : terms ≠ [])
    (h : Searchable terms)
    (htarget : ∀ here target rest, collection.foreign? field = some (here, target, rest) →
      ∃ found, store.find? target = some found) :
    (fieldClause collection (terms.map Pattern.escape) field).Accepted store base := by
  unfold fieldClause
  cases hforeign : collection.foreign? field with
  | none =>
    exact ⟨accepts_containsAll base (isOperatorKey_of_keys hfield) hterms h,
      by simp [Filter.joins_containsAll]⟩
  | some reference =>
    obtain ⟨here, target, rest⟩ := reference
    rw [(Collection.foreign?_eq_some hforeign).2.1, List.forall_mem_append] at hfield
    dsimp only
    constructor
    · have hread : Readable [(here, .document [("$in", .array [])])] :=
        readable_in_iff.2 (isOperatorKey_of_keys hfield.1)
      exact StoredCollection.accepts_iff.2 ⟨hread, .inl (Clause.searchesNoText_joined _ [] hread)⟩
    · rw [Clause.joins, List.forall_mem_singleton]
      obtain ⟨found, hfound⟩ := htarget here target rest hforeign
      exact ⟨found, hfound, accepts_containsAll found (isOperatorKey_of_keys hfield.2) hterms h⟩

end Meaning

end Search

end DocQuery
