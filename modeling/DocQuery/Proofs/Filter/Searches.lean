import DocQuery.Proofs.Filter.TextSearch
import DocQuery.Proofs.Query.Conditions

/-!
# Which text a filter searches for

A test searches for the first text that stands in it, so the order of its parts may count.  In the filter
of a request it does not: all texts in its clauses are the same one (`Test.SearchesOnly`), since only the
clause of one key can search for text.  `Filter.search?_eq` says which text the whole filter searches for:
that of the clauses of `any`, else that of the request, else that of the clauses of `all`.
-/

namespace DocQuery

open Test

/-! ### Tests -/

namespace Test

mutual

/-- All texts that a test searches for, however deep, are this one. -/
def SearchesOnly (text : String) : Test → Prop
  | .text search => search = text
  | .all tests => EachSearchesOnly text tests
  | .any tests => EachSearchesOnly text tests
  | _ => True

def EachSearchesOnly (text : String) : List Test → Prop
  | [] => True
  | test :: rest => test.SearchesOnly text ∧ EachSearchesOnly text rest

end

variable {text : String}

theorem eachSearchesOnly_iff {tests : List Test} :
    EachSearchesOnly text tests ↔ ∀ test ∈ tests, test.SearchesOnly text := by
  induction tests with
  | nil => simp [EachSearchesOnly]
  | cons test rest ih => simp [EachSearchesOnly, ih]

theorem ignoresValues_searchesOnly (text : String) : IgnoresValues (SearchesOnly text) where
  all _ := eachSearchesOnly_iff
  any _ := eachSearchesOnly_iff
  oneOf _ _ := trivial

mutual

theorem SearchesOnly.search? : ∀ {test : Test}, test.SearchesOnly text →
    test.search? = none ∨ test.search? = some text
  | .text _, h => .inr (congrArg some h)
  | .all tests, h => EachSearchesOnly.searchAmong tests h
  | .any tests, h => EachSearchesOnly.searchAmong tests h
  | .equal _ _, _ => .inl rfl
  | .unequal _ _, _ => .inl rfl
  | .compare _ _ _, _ => .inl rfl
  | .oneOf _ _, _ => .inl rfl
  | .noneOf _ _, _ => .inl rfl
  | .finds _ _, _ => .inl rfl
  | .present _ _, _ => .inl rfl

theorem EachSearchesOnly.searchAmong : ∀ tests : List Test, EachSearchesOnly text tests →
    searchAmong tests = none ∨ searchAmong tests = some text
  | [], _ => .inl rfl
  | test :: rest, h => by
    rw [Test.searchAmong]
    rcases h.1.search? with hfirst | hfirst
    · rw [hfirst, Option.none_or]
      exact EachSearchesOnly.searchAmong rest h.2
    · rw [hfirst, Option.some_or]
      exact .inr rfl

end

mutual

/-- A test that searches for no text at all. -/
theorem searchesOnly_of_quiet : ∀ {test : Test}, test.search? = none → test.SearchesOnly text
  | .text _, h => absurd h (by simp [search?])
  | .all tests, h => eachSearchesOnly_of_quiet tests h
  | .any tests, h => eachSearchesOnly_of_quiet tests h
  | .equal _ _, _ => trivial
  | .unequal _ _, _ => trivial
  | .compare _ _ _, _ => trivial
  | .oneOf _ _, _ => trivial
  | .noneOf _ _, _ => trivial
  | .finds _ _, _ => trivial
  | .present _ _, _ => trivial

theorem eachSearchesOnly_of_quiet : ∀ tests : List Test, searchAmong tests = none →
    EachSearchesOnly text tests
  | [], _ => trivial
  | test :: rest, h => by
    rw [searchAmong, Option.or_eq_none_iff] at h
    exact ⟨searchesOnly_of_quiet h.1, eachSearchesOnly_of_quiet rest h.2⟩

end

theorem Reads.mono {P Q : Test → Prop} {body : Document} (h : Reads P body)
    (hPQ : ∀ test, P test → Q test) : Reads Q body :=
  h.imp fun test => And.imp_right (hPQ test)

theorem search?_conjunction (tests : List Test) : (conjunction tests).search? = searchAmong tests := by
  match tests with
  | [] => rfl
  | [only] => simp [conjunction, searchAmong]
  | _ :: _ :: _ => rfl

theorem readFields_append {body other : Document} {tests : List Test}
    (h : readFields (body ++ other) = .ok tests) :
    ∃ first second, readFields body = .ok first ∧ readFields other = .ok second ∧
      tests = first ++ second := by
  induction body generalizing tests with
  | nil => exact ⟨[], tests, rfl, h, rfl⟩
  | cons field rest ih =>
    obtain ⟨first, others, hfirst, hothers, rfl⟩ := readFields_cons_iff.1 h
    obtain ⟨front, back, hfront, hback, rfl⟩ := ih hothers
    exact ⟨first :: front, back, readFields_cons_iff.2 ⟨first, front, hfirst, hfront, rfl⟩, hback,
      rfl⟩

theorem searchAmong_append (tests others : List Test) :
    searchAmong (tests ++ others) = (searchAmong tests).or (searchAmong others) := by
  induction tests with
  | nil => rfl
  | cons test rest ih => rw [List.cons_append, searchAmong, ih, searchAmong, Option.or_assoc]

/-- Of two bodies, the second one is searched for text if the first one is not. -/
theorem read_append {body other : Document} {test : Test} (h : read (body ++ other) = .ok test) :
    ∃ first second, read body = .ok first ∧ read other = .ok second ∧
      test.search? = first.search?.or second.search? := by
  obtain ⟨tests, htests, rfl⟩ := Outcome.map_eq_ok_iff.1 h
  obtain ⟨first, second, hfirst, hsecond, rfl⟩ := readFields_append htests
  refine ⟨conjunction first, conjunction second, ?_, ?_, ?_⟩
  · rw [read, hfirst]
    rfl
  · rw [read, hsecond]
    rfl
  · rw [search?_conjunction, search?_conjunction, search?_conjunction, searchAmong_append]

/-- A body with at most one text to search for. -/
theorem search?_of_reads {body : Document} {test : Test} (h : read body = .ok test)
    (honly : Reads (SearchesOnly text) body) [Decidable (Quiet body)] :
    test.search? = if Quiet body then none else some text := by
  have hquiet : Quiet body ↔ test.search? = none := by simp [Quiet, h]
  have hsearch : test.SearchesOnly text := by simpa [Reads, h] using honly
  split
  · next hq => exact hquiet.1 hq
  · next hq => exact hsearch.search?.resolve_left (mt hquiet.2 hq)

end Test

/-! ### Filters -/

namespace Filter

variable {filter : Filter} {resolved : ResolvedIds} {text : String}

/-- The clauses of `any` search for no text. -/
def AnyQuiet (filter : Filter) (resolved : ResolvedIds) : Prop :=
  ∀ clause ∈ filter.any, Quiet (clause.toDocument resolved)

/-- The clauses of `all` search for no text. -/
def AllQuiet (filter : Filter) (resolved : ResolvedIds) : Prop :=
  ∀ clause ∈ filter.all, Quiet (clause.toDocument resolved)

theorem reads_anyFields_iff {P : Test → Prop} (hP : IgnoresValues P) (htrue : P (.all [])) :
    Reads P (filter.anyFields resolved) ↔ ∀ clause ∈ filter.any, Reads P (clause.toDocument resolved) := by
  unfold anyFields
  cases hany : filter.any with
  | nil => exact iff_of_true ⟨.all [], rfl, htrue⟩ (List.forall_mem_nil _)
  | cons clause rest =>
    rw [if_neg (by simp), Clause.reads_any_iff hP]
    exact and_iff_right (List.cons_ne_nil clause rest)

/-- What names fields searches for no text. -/
theorem quiet_of_plain {fields : Document} (h : ∀ field ∈ fields, isOperatorKey field.1 = false)
    (hread : Readable fields) : Quiet fields := by
  rw [readable_iff_reads, reads_iff_forall conjunctive_true] at hread
  refine (reads_iff_forall conjunctive_quiet fields).2 fun field hfield => ?_
  obtain ⟨key, value⟩ := field
  obtain ⟨test, htest, -⟩ := reads_singleton_iff.1 (hread _ hfield)
  have hkey : Test.isOperatorKey key = false := h _ hfield
  refine reads_singleton_iff.2 ⟨test, htest, ?_⟩
  exact quiet_readField (ne_of_isOperatorKey hkey (by decide)) (ne_of_isOperatorKey hkey (by decide))
    (ne_of_isOperatorKey hkey (by decide)) htest

theorem search?_textFields {test : Test} (h : read filter.textFields = .ok test) :
    test.search? = filter.text := by
  unfold textFields at h
  cases htext : filter.text with
  | none =>
    rw [htext] at h
    cases h
    rfl
  | some query =>
    rw [htext] at h
    have hread := read_singleton_iff.1 h
    rw [readField_text] at hread
    cases hread
    rfl

open Classical in
/-- The text that a filter searches for: that of its clauses of `any`, else that of the request, else
that of its clauses of `all`. -/
theorem search?_eq {test : Test} (hread : read (filter.toDocument resolved) = .ok test)
    (honly : ∀ clause ∈ filter.all ++ filter.any,
      Reads (SearchesOnly text) (clause.toDocument resolved)) :
    test.search? = (if filter.AnyQuiet resolved then none else some text).or
      (filter.text.or (if filter.AllQuiet resolved then none else some text)) := by
  rw [List.forall_mem_append] at honly
  rw [toDocument_eq] at hread
  obtain ⟨front, last, hfront, hlast, hsearch⟩ := read_append hread
  obtain ⟨front, third, hfront, hthird, hsearch'⟩ := read_append hfront
  obtain ⟨first, second, hfirst, hsecond, hsearch''⟩ := read_append hfront
  -- the fields that were put into one document name no operators
  have hplain := (filter.gathered_gathers resolved).plain
  have hquiet : Quiet (filter.gathered resolved).fields := quiet_of_plain hplain ⟨first, hfirst⟩
  have hnone : first.search? = none := by simpa [Quiet, hfirst] using hquiet
  have hsecond' : second.search? = if filter.AnyQuiet resolved then none else some text := by
    rw [search?_of_reads hsecond
      ((reads_anyFields_iff (ignoresValues_searchesOnly text) trivial).2 honly.2)]
    exact if_congr (reads_anyFields_iff ignoresValues_quiet rfl) rfl rfl
  have hlast' : last.search? = if filter.AllQuiet resolved then none else some text := by
    have hgathered := fun {P : Test → Prop} (hP : Conjunctive P) =>
      filter.reads_gathered_iff resolved hP
    have hone : Reads (SearchesOnly text) (filter.apartFields resolved) :=
      (reads_iff_forall (ignoresValues_searchesOnly text).all _).2
        ((hgathered (ignoresValues_searchesOnly text).all).2 honly.1).2
    have hall : Quiet (filter.apartFields resolved) ↔ filter.AllQuiet resolved := by
      have hiff := hgathered conjunctive_quiet
      rw [and_iff_right ((reads_iff_forall conjunctive_quiet _).1 hquiet)] at hiff
      exact (reads_iff_forall conjunctive_quiet _).trans hiff
    rw [search?_of_reads hlast hone]
    exact if_congr hall rfl rfl
  rw [hsearch, hsearch', hsearch'', hnone, hsecond', hlast', search?_textFields hthird,
    Option.none_or, Option.or_assoc]

end Filter

/-! ### Requests -/

namespace Compiler

/-- What a clause of a request searches for: nothing, or it is the clause of the one key that can search
for text, in the list for its mark. -/
inductive Searches (c : Compiler) (request : Request) : Bool → Clause → Prop
  | nothing {alternative : Bool} {clause : Clause} (h : clause.SearchesNoText) :
    Searches c request alternative clause
  | text {s : String} {info : FieldInfo} (hmem : ("$text", s) ∈ request)
    (hreserved : c.collection.options.isReserved "$text" = false)
    (hinfo : c.collection.info? "$text" = some info) :
    Searches c request (Condition.read s).isAlternative
      (.field "$text" ((Condition.read s).compile (some info)))

/-- The clauses of a filter search for what the clauses of a request can search for. -/
structure SearchesBy (c : Compiler) (request : Request) (filter : Filter) : Prop where
  all : ∀ clause ∈ filter.all, c.Searches request false clause
  any : ∀ clause ∈ filter.any, c.Searches request true clause

variable {c : Compiler} {request : Request} {filter next : Filter} {clause : Clause}

theorem SearchesBy.addAll (h : c.SearchesBy request filter) (hclause : c.Searches request false clause)
    (hnext : next.all = filter.all ∧ next.any = filter.any) :
    c.SearchesBy request (next.addAll clause) where
  all other hother := by
    rw [Filter.addAll, hnext.1] at hother
    rcases List.mem_append.1 hother with hother | hother
    · exact h.all other hother
    · exact List.mem_singleton.1 hother ▸ hclause
  any other hother := h.any other (hnext.2 ▸ hother)

theorem SearchesBy.addAny (h : c.SearchesBy request filter) (hclause : c.Searches request true clause)
    (hnext : next.all = filter.all ∧ next.any = filter.any) :
    c.SearchesBy request (next.addAny clause) where
  all other hother := h.all other (hnext.1 ▸ hother)
  any other hother := by
    rw [Filter.addAny, hnext.2] at hother
    rcases List.mem_append.1 hother with hother | hother
    · exact h.any other hother
    · exact List.mem_singleton.1 hother ▸ hclause

/-- The clause of a key searches for text only if the key is that of a text search. -/
theorem searches_of_clauseFor {pair : String × String} (hmem : pair ∈ request)
    (hreserved : c.collection.options.isReserved pair.1 = false)
    (h : c.clauseFor pair.1 (Condition.read pair.2) filter = some (clause, next)) :
    c.Searches request (Condition.read pair.2).isAlternative clause ∧
      next.all = filter.all ∧ next.any = filter.any := by
  obtain ⟨key, s⟩ := pair
  have hnot : key ≠ "$text" → ∀ info, c.Searches request (Condition.read s).isAlternative
      (.field key ((Condition.read s).compile info)) := by
    intro hkey info
    refine .nothing (Clause.searchesNoText_field fun test htest => ?_)
    exact quiet_readField_of_isArray hkey (Condition.isArray_compile _ _) htest
  unfold clauseFor at h
  split at h
  · next info hinfo =>
    cases h
    refine ⟨?_, rfl, rfl⟩
    by_cases hkey : key = "$text"
    · subst hkey
      exact .text hmem hreserved hinfo
    · exact hnot hkey _
  · split at h
    · cases h
      exact ⟨.nothing (Clause.searchesNoText_joined _), rfl, rfl⟩
    · split at h
      · next hdot =>
        cases h
        refine ⟨hnot ?_ _, rfl, rfl⟩
        rintro (rfl : key = "$text")
        exact absurd hdot (by simp)
      · cases h

theorem searchesBy_addPair {pair : String × String} (hmem : pair ∈ request)
    (h : c.SearchesBy request filter) : c.SearchesBy request (c.addPair filter pair) := by
  unfold addPair
  split
  · exact h
  · next hreserved =>
    rw [Bool.not_eq_true] at hreserved
    dsimp only
    split
    · next clause next hclause =>
      obtain ⟨hsearches, hnext⟩ := searches_of_clauseFor hmem hreserved hclause
      split
      · next hmark => exact h.addAny (hmark ▸ hsearches) hnext
      · next hmark =>
        rw [Bool.not_eq_true] at hmark
        exact h.addAll (hmark ▸ hsearches) hnext
    · exact h

theorem searchesBy_addField (patterns : List String) (h : c.SearchesBy request filter)
    (field : String) :
    c.SearchesBy request (Search.addField c.collection patterns filter field) := by
  unfold Search.addField
  split
  · exact h.addAny (.nothing (Clause.searchesNoText_joined _)) ⟨rfl, rfl⟩
  · exact h.addAny (.nothing (Clause.searchesNoText_words field patterns)) ⟨rfl, rfl⟩

theorem searchesBy_normalized (text : String) (h : c.SearchesBy request filter) :
    c.SearchesBy request (Search.normalized text c.collection filter) := by
  unfold Search.normalized
  dsimp only
  split
  · exact h
  · split
    · exact h
    · exact h.addAll (.nothing (Clause.searchesNoText_normalized _ _)) ⟨rfl, rfl⟩

/-- The filter of a request searches by its key for text at most, apart from the free-text query. -/
theorem searchesBy_filterOf (c : Compiler) (request : Request) :
    c.SearchesBy request (c.filterOf request) := by
  have hpairs : c.SearchesBy request (request.foldl c.addPair .empty) :=
    List.foldlRecOn _ _ ⟨by simp [Filter.empty], by simp [Filter.empty]⟩
      fun _ h pair hpair => searchesBy_addPair hpair h
  have hquery : ∀ query hasIndex (filter : Filter), c.SearchesBy request filter →
      c.SearchesBy request (Search.freeText query hasIndex c.collection filter) := by
    intro query hasIndex filter h
    unfold Search.freeText
    split
    · exact ⟨h.all, h.any⟩
    · split
      · exact h
      · exact List.foldlRecOn _ _ h fun filter h field _ => searchesBy_addField _ h field
  unfold filterOf
  dsimp only
  cases option? request c.collection.options.queryKey with
  | none =>
    cases option? request c.collection.options.searchKey with
    | none => exact hpairs
    | some text => exact searchesBy_normalized text hpairs
  | some query =>
    have hsearch := hquery query (c.catalog.hasTextIndex c.name) _ hpairs
    cases option? request c.collection.options.searchKey with
    | none => exact hsearch
    | some text => exact searchesBy_normalized text hsearch

/-- A text search has one text. -/
theorem exists_searchesOnly_of_readField (value : Value) :
    ∃ text, ∀ test, readField "$text" value = .ok test → test.SearchesOnly text := by
  have hother : readField "$text" value = readOther "$text" value := by
    unfold readField
    split <;> rfl
  rw [hother, readOther, if_pos rfl]
  cases searchText value with
  | error fault =>
    refine ⟨"", fun test h => ?_⟩
    cases h
  | ok text =>
    refine ⟨text, fun test h => ?_⟩
    obtain rfl : Test.text text = test := Except.ok.inj h
    rfl

/-- In the clauses of a request with distinct keys there is at most one text to search for. -/
theorem exists_searchesOnly (c : Compiler) (hdistinct : Keyed.Distinct request) :
    ∃ text, ∀ clause ∈ (c.filterOf request).all ++ (c.filterOf request).any, ∀ resolved,
      Readable (clause.toDocument resolved) → Reads (SearchesOnly text) (clause.toDocument resolved) := by
  obtain ⟨text, htext⟩ := exists_searchesOnly_of_readField
    ((Condition.read ((request.lookup "$text").getD "")).compile (c.collection.info? "$text"))
  have hclause : ∀ alternative clause, c.Searches request alternative clause → ∀ resolved,
      Readable (clause.toDocument resolved) →
        Reads (SearchesOnly text) (clause.toDocument resolved) := by
    intro alternative clause hsearches resolved hread
    cases hsearches with
    | nothing h => exact Reads.mono (h resolved hread) fun _ => searchesOnly_of_quiet
    | text hmem _ hinfo =>
      obtain ⟨test, htest⟩ := readable_singleton_iff.1 hread
      refine reads_singleton_iff.2 ⟨test, htest, htext test ?_⟩
      rwa [Keyed.lookup_of_mem hdistinct hmem, hinfo]
  have h := c.searchesBy_filterOf request
  refine ⟨text, List.forall_mem_append.2 ⟨?_, ?_⟩⟩
  · exact fun clause hc => hclause _ _ (h.all clause hc)
  · exact fun clause hc => hclause _ _ (h.any clause hc)

end Compiler

end DocQuery
