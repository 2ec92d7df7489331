import DocQuery.Proofs.Filter.Acceptance
import DocQuery.Proofs.Filter.Built
import DocQuery.Proofs.Store.Inserting

/-!
# A text search meets an index

The filter of a request searches for text only if the catalog gives the collection a text index
(`Filter.Built.meets`), and the stores that are made for a catalog have the indexes of the catalog,
whatever is inserted into them (`Store.BuiltFor.indexes`).  So such a store refuses the filter of a
request only if it cannot be read (`Compiler.accepts_filterOf_iff`).
-/

namespace DocQuery

open Test

/-! ### What searches for no text -/

namespace Test

theorem quiet_readPattern {path pattern options : String} {test : Test}
    (h : readPattern path pattern options = .ok test) : test.search? = none := by
  unfold readPattern at h
  split at h <;> cases h
  rfl

/-- The tests on the values at a path search for no text. -/
theorem quiet_readOperator {path operator : String} {ops : Document} {operand : Value}
    {test : Test} (h : readOperator path ops operator operand = .ok (some test)) :
    test.search? = none := by
  have hitems : ∀ join : List Value → Test, (∀ values, (join values).search? = none) →
      (items operator operand).map (fun values => some (join values)) = .ok (some test) →
        test.search? = none := by
    intro join hjoin h
    obtain ⟨values, -, htest⟩ := Outcome.map_eq_ok_iff.1 h
    exact Option.some.inj htest ▸ hjoin values
  have hpattern : ∀ pattern options, (readPattern path pattern options).map some = .ok (some test) →
      test.search? = none := by
    intro pattern options h
    obtain ⟨found, hfound, htest⟩ := Outcome.map_eq_ok_iff.1 h
    exact Option.some.inj htest ▸ quiet_readPattern hfound
  unfold readOperator at h
  split at h
  case h_7 | h_8 => exact hitems _ (fun _ => rfl) h
  case h_10 =>
    dsimp only at h
    split at h
    · exact hpattern _ _ h
    · exact hpattern _ _ h
    · cases h
  case h_11 => split at h <;> cases h
  all_goals cases h <;> rfl

theorem quiet_readOperators {path : String} {ops fields : Document} {tests : List Test}
    (h : readOperators path ops fields = .ok tests) : ∀ test ∈ tests, test.search? = none := by
  induction fields generalizing tests with
  | nil => cases h; simp
  | cons field rest ih =>
    obtain ⟨operator, operand⟩ := field
    obtain ⟨first, hfirst, h⟩ := Outcome.bind_eq_ok_iff.1 h
    obtain ⟨others, hothers, h⟩ := Outcome.bind_eq_ok_iff.1 h
    cases h
    refine List.forall_mem_append.2 ⟨fun test htest => ?_, ih hothers⟩
    exact quiet_readOperator (hfirst.trans (congrArg Except.ok (Option.mem_toList.1 htest)))

theorem quiet_readCondition {path : String} {value : Value} {test : Test}
    (h : readCondition path value = .ok test) : test.search? = none := by
  unfold readCondition at h
  split at h
  · split at h
    · obtain ⟨tests, htests, rfl⟩ := Outcome.map_eq_ok_iff.1 h
      exact (conjunctive_quiet.conjunction_iff tests).2 (quiet_readOperators htests)
    · cases h
      rfl
  · exact quiet_readPattern h
  · cases h
    rfl

/-- Apart from conjunctions and disjunctions, only an operator of its own searches for text. -/
theorem quiet_readOther {key : String} {value : Value} {test : Test} (htext : key ≠ "$text")
    (h : readOther key value = .ok test) : test.search? = none := by
  rw [readOther, if_neg htext] at h
  split at h
  · cases h
  · exact quiet_readCondition h

theorem quiet_readField {key : String} {value : Value} {test : Test} (htext : key ≠ "$text")
    (hand : key ≠ "$and") (hor : key ≠ "$or") (h : readField key value = .ok test) :
    test.search? = none := by
  have hother : readField key value = readOther key value := by
    unfold readField
    split
    · rw [if_neg hand, if_neg hor]
    · rw [if_neg (by simp [hand, hor])]
  exact quiet_readOther htext (hother ▸ h)

/-- What is no array is no conjunction and no disjunction. -/
theorem quiet_readField_of_isArray {key : String} {value : Value} {test : Test} (htext : key ≠ "$text")
    (hvalue : value.isArray = false) (h : readField key value = .ok test) : test.search? = none := by
  by_cases hjoins : key = "$and" ∨ key = "$or"
  · unfold readField at h
    split at h
    · cases hvalue
    · rw [if_pos (by simpa using hjoins)] at h
      cases h
  · rw [not_or] at hjoins
    exact quiet_readField htext hjoins.1 hjoins.2 h

/-- A pattern is looked for in texts, and no text is searched for, whatever the key is. -/
theorem quiet_readField_regex {key : String} {operators : Document} {test : Test}
    (hnone : operators.string? "$search" = none)
    (h : readField key (.document operators) = .ok test) : test.search? = none := by
  rw [readField] at h
  · split at h
    · cases h
    · by_cases htext : key = "$text"
      · rw [readOther, if_pos htext, searchText, hnone] at h
        cases h
      · exact quiet_readOther htext h
  · simp

end Test

/-! ### Clauses -/

namespace Clause

/-- What the store makes of a clause, if it makes anything of it, searches for no text. -/
def SearchesNoText (clause : Clause) : Prop :=
  ∀ resolved, Readable (clause.toDocument resolved) → Quiet (clause.toDocument resolved)

theorem searchesNoText_field {path : String} {condition : Value}
    (h : ∀ test, readField path condition = .ok test → test.search? = none) :
    SearchesNoText (.field path condition) := by
  intro resolved hread
  obtain ⟨test, htest⟩ := readable_singleton_iff.1 hread
  exact ⟨test, read_singleton_iff.2 htest, h test htest⟩

theorem searchesNoText_joined (clause : JoinedClause) : SearchesNoText (.joined clause) := by
  intro resolved hread
  rw [readable_iff_reads, reads_joined_iff ignoresValues_true] at hread
  exact (reads_joined_iff ignoresValues_quiet clause).2 hread

theorem searchesNoText_all {clauses : List Clause}
    (h : ∀ clause ∈ clauses, clause.SearchesNoText) : SearchesNoText (.all clauses) := by
  intro resolved hread
  obtain ⟨hne, hclauses⟩ := readable_all_iff.1 hread
  exact (reads_all_iff conjunctive_quiet).2 ⟨hne, fun clause hc =>
    h clause hc resolved (hclauses clause hc)⟩

theorem searchesNoText_any {clauses : List Clause}
    (h : ∀ clause ∈ clauses, clause.SearchesNoText) : SearchesNoText (.any clauses) := by
  intro resolved hread
  obtain ⟨hne, hclauses⟩ := readable_any_iff.1 hread
  rw [Quiet]
  refine (reads_any_iff ignoresValues_quiet).2 ⟨hne, fun clause hc => ?_⟩
  exact h clause hc resolved (hclauses clause hc)

end Clause

/-! ### Filters -/

namespace Filter

/-- The clauses of a filter search for no text, and the filter itself only where there is an index. -/
structure Meets (hasIndex : Bool) (filter : Filter) : Prop where
  clauses : ∀ clause ∈ filter.all ++ filter.any, clause.SearchesNoText
  text : filter.text ≠ none → hasIndex = true

variable {hasIndex : Bool} {filter : Filter}

/-- Where there is an index if one is needed, a filter is accepted as soon as it can be read. -/
theorem Meets.accepts_iff {base : StoredCollection} {resolved : ResolvedIds}
    (h : filter.Meets hasIndex) (hindex : hasIndex = true → base.textIndex ≠ []) :
    base.Accepts (filter.toDocument resolved) ↔ Readable (filter.toDocument resolved) := by
  rw [StoredCollection.accepts_iff, and_iff_left_iff_imp]
  intro hread
  by_cases htext : filter.text = none
  · have hclauses := (filter.readable_toDocument_iff resolved).1 hread
    have hquiet : ∀ clause ∈ filter.all ++ filter.any, Quiet (clause.toDocument resolved) :=
      fun clause hc => h.clauses clause hc resolved (hclauses clause hc)
    rw [List.forall_mem_append] at hquiet
    refine .inl ((filter.reads_toDocument_iff resolved conjunctive_quiet).2 ⟨hquiet.1, ?_, ?_⟩)
    · rw [anyFields]
      cases hany : filter.any with
      | nil => simp
      | cons clause rest =>
        rw [if_neg (by simp), List.forall_mem_singleton, Clause.reads_any_iff ignoresValues_quiet]
        exact ⟨List.cons_ne_nil _ _, hany ▸ hquiet.2⟩
    · simp [textFields, htext]
  · exact .inr (hindex (h.text htext))

end Filter

/-! ### Requests -/

/-- No declared field is named like an operator. -/
def Collection.NamesFields (c : Collection) : Prop :=
  ∀ field ∈ c.fields, isOperatorKey field.1 = false

namespace Clause

variable {collection : Collection}

/-- What is declared is no operator. -/
theorem isOperatorKey_of_info? (hnames : collection.NamesFields) {key : String} {info : FieldInfo}
    (h : collection.info? key = some info) : isOperatorKey key = false := by
  unfold Collection.info? at h
  split at h
  · next hlookup => exact hnames _ (Keyed.mem_of_lookup hlookup)
  · split at h
    · next hid => rw [hid]; decide
    · cases h

theorem searchesNoText_of_key {key : String} {value : Value}
    (hkey : isOperatorKey key = false ∨ '.' ∈ key.toList) :
    Clause.SearchesNoText (.field key value) := by
  have hne : ∀ operator : String, isOperatorKey operator = true → '.' ∉ operator.toList →
      key ≠ operator := by
    rintro operator hoperator hdot rfl
    rcases hkey with hkey | hkey
    · rw [hoperator] at hkey
      cases hkey
    · exact hdot hkey
  exact Clause.searchesNoText_field fun test => quiet_readField (hne _ (by decide) (by decide))
    (hne _ (by decide) (by decide)) (hne _ (by decide) (by decide))

theorem searchesNoText_words (path : String) (patterns : List String) :
    (Search.containsAll path patterns).SearchesNoText := by
  refine searchesNoText_all (List.forall_mem_map.2 fun pattern _ => ?_)
  exact searchesNoText_field fun _ h => quiet_readField_regex (by rfl) h

theorem searchesNoText_normalized (fields : List String) (pattern : String) :
    Clause.SearchesNoText
      (.any (fields.map fun field => .field field (.document [("$regex", .string pattern)]))) := by
  refine searchesNoText_any (List.forall_mem_map.2 fun field _ => ?_)
  exact searchesNoText_field fun _ h => quiet_readField_regex (by rfl) h

theorem Own.searchesNoText (hnames : collection.NamesFields) {clause : Clause}
    (h : clause.Own collection) : clause.SearchesNoText := by
  cases h with
  | declared hinfo _ => exact searchesNoText_of_key (.inl (isOperatorKey_of_info? hnames hinfo))
  | dotted hdot _ => exact searchesNoText_of_key (.inr hdot)
  | words path patterns => exact searchesNoText_words path patterns
  | normalized fields pattern => exact searchesNoText_normalized fields pattern

end Clause

namespace Filter

variable {collection : Collection} {hasIndex : Bool} {filter next : Filter} {clause : Clause}

/-- A step adds a clause that searches for no text, and takes nothing else but a slot. -/
theorem Meets.of_adds (hnames : collection.NamesFields) (h : filter.Meets hasIndex)
    (hadds : filter.Adds collection clause next) : clause.SearchesNoText ∧ next.Meets hasIndex := by
  cases hadds with
  | own hown => exact ⟨hown.searchesNoText hnames, h⟩
  | joined _ _ _ => exact ⟨Clause.searchesNoText_joined _, h.clauses, h.text⟩

theorem Meets.add {whole : Filter} (h : filter.Meets hasIndex) (hclause : clause.SearchesNoText)
    (hperm : (whole.all ++ whole.any).Perm (clause :: (filter.all ++ filter.any)))
    (htext : whole.text = filter.text) : whole.Meets hasIndex where
  clauses other hother := by
    rcases List.mem_cons.1 (hperm.mem_iff.1 hother) with rfl | hmem
    · exact hclause
    · exact h.clauses other hmem
  text hne := h.text (htext ▸ hne)

theorem Built.meets (hnames : collection.NamesFields) (h : filter.Built collection hasIndex) :
    filter.Meets hasIndex := by
  induction h with
  | empty => exact ⟨by simp [Filter.empty], by simp [Filter.empty]⟩
  | @addAll filter next clause _ hadds ih =>
    obtain ⟨hclause, hnext⟩ := ih.of_adds hnames hadds
    refine hnext.add hclause ?_ rfl
    rw [Filter.addAll, List.append_assoc, List.singleton_append]
    exact List.perm_middle
  | @addAny filter next clause _ hadds ih =>
    obtain ⟨hclause, hnext⟩ := ih.of_adds hnames hadds
    refine hnext.add hclause ?_ rfl
    rw [Filter.addAny, ← List.append_assoc]
    exact List.perm_append_singleton clause _
  | search _ hindex _ ih => exact ⟨ih.clauses, fun _ => hindex⟩

end Filter

/-! ### Stores for a catalog -/

/-- **A text search meets an index.**  A store that was made for a catalog refuses the filter of a
request only if it cannot be read, whatever ids are filed. -/
theorem Compiler.accepts_filterOf_iff {store : Store} {c : Compiler} {base : StoredCollection}
    (hdistinct : Keyed.Distinct c.catalog) (hnames : c.collection.NamesFields)
    (hstore : store.BuiltFor c.catalog) (hcollection : c.catalog.find? c.name = some c.collection)
    (hbase : store.find? c.name = some base) (request : Request) (resolved : ResolvedIds) :
    base.Accepts ((c.filterOf request).toDocument resolved) ↔
      Readable ((c.filterOf request).toDocument resolved) := by
  obtain ⟨found, hfound, hindex⟩ := hstore.indexes hdistinct hcollection
  obtain rfl : base = found := Option.some.inj (hbase.symm.trans hfound)
  refine ((c.built_filterOf request).meets hnames).accepts_iff fun hhas => ?_
  rw [Catalog.hasTextIndex, hcollection] at hhas
  rw [hindex]
  simpa [Collection.hasTextIndex] using hhas

end DocQuery
