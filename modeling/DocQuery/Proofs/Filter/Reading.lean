import DocQuery.Proofs.Outcome
import DocQuery.Store.Match
import Mathlib.Data.List.Forall2

/-!
# What the body of a match stage means

A body is readable if the store makes a test of it, it admits a document if that test holds, and it
is quiet if that test searches for no text.  All three say that the body is read as a test with a
property (`Reads`) that a conjunction has if its parts have it (`Conjunctive`), and so they are
decided field by field:

* `reads_iff_forall`: a body is readable, admits a document, or is quiet, if each of its fields alone
  is, or does.  So none of this depends on the order of the fields;
* `reads_and_iff`: the same for the bodies in an array of conditions that all have to hold;
* `readable_or_iff`, `admits_or_iff`: the same for an array of alternatives.
-/

namespace DocQuery.Test

/-- The store reads a body as a test with a property. -/
def Reads (P : Test → Prop) (body : Document) : Prop := ∃ test, read body = .ok test ∧ P test

/-- The store can read a body. -/
def Readable (body : Document) : Prop := ∃ test, read body = .ok test

/-- The store can read a body, and a document with this relevance passes it. -/
def Admits (body doc : Document) (relevance : Nat) : Prop :=
  ∃ test, read body = .ok test ∧ test.holds doc relevance = true

/-- The store can read a body, and the body searches for no text. -/
def Quiet (body : Document) : Prop := ∃ test, read body = .ok test ∧ test.search? = none

/-- Some tests have a property together if each of them has it. -/
def Conjunctive (P : Test → Prop) : Prop := ∀ tests, P (.all tests) ↔ ∀ test ∈ tests, P test

theorem readable_iff_reads (body : Document) : Readable body ↔ Reads (fun _ => True) body := by
  simp [Readable, Reads]

theorem Reads.readable {P : Test → Prop} {body : Document} (h : Reads P body) : Readable body := by
  obtain ⟨test, hread, _⟩ := h
  exact ⟨test, hread⟩

theorem conjunctive_true : Conjunctive fun _ => True := by simp [Conjunctive]

/-! ### Deciding lists of tests -/

theorem holdsAll_iff (doc : Document) (relevance : Nat) (tests : List Test) :
    holdsAll doc relevance tests = true ↔ ∀ test ∈ tests, test.holds doc relevance = true := by
  induction tests with
  | nil => simp [holdsAll]
  | cons test rest ih => simp [holdsAll, ih]

theorem holdsAny_iff (doc : Document) (relevance : Nat) (tests : List Test) :
    holdsAny doc relevance tests = true ↔ ∃ test ∈ tests, test.holds doc relevance = true := by
  induction tests with
  | nil => simp [holdsAny]
  | cons test rest ih => simp [holdsAny, ih]

theorem searchAmong_eq_none_iff (tests : List Test) :
    searchAmong tests = none ↔ ∀ test ∈ tests, test.search? = none := by
  induction tests with
  | nil => simp [searchAmong]
  | cons test rest ih => simp [searchAmong, ih]

theorem conjunctive_holds (doc : Document) (relevance : Nat) :
    Conjunctive fun test => test.holds doc relevance = true := by
  intro tests
  show holdsAll doc relevance tests = true ↔ _
  rw [holdsAll_iff]

theorem conjunctive_quiet : Conjunctive fun test => test.search? = none := by
  intro tests
  show searchAmong tests = none ↔ _
  rw [searchAmong_eq_none_iff]

variable {P : Test → Prop}

theorem Conjunctive.conjunction_iff (hP : Conjunctive P) (tests : List Test) :
    P (conjunction tests) ↔ ∀ test ∈ tests, P test := by
  match tests with
  | [] => exact hP []
  | [only] => simp [conjunction]
  | first :: second :: rest => exact hP (first :: second :: rest)

/-! ### Bodies -/

theorem reads_iff (hP : Conjunctive P) (body : Document) :
    Reads P body ↔ ∃ tests, readFields body = .ok tests ∧ ∀ test ∈ tests, P test := by
  simp only [Reads, read, Outcome.map_eq_ok_iff]
  constructor
  · rintro ⟨_, ⟨tests, h, rfl⟩, hold⟩
    exact ⟨tests, h, (hP.conjunction_iff tests).1 hold⟩
  · rintro ⟨tests, h, hold⟩
    exact ⟨_, ⟨tests, h, rfl⟩, (hP.conjunction_iff tests).2 hold⟩

theorem readFields_cons_iff {field : String × Value} {rest : Document} {tests : List Test} :
    readFields (field :: rest) = .ok tests ↔
      ∃ first others, readField field.1 field.2 = .ok first ∧ readFields rest = .ok others ∧
        tests = first :: others := by
  obtain ⟨key, value⟩ := field
  rw [readFields]
  simp only [Outcome.bind_eq_ok_iff, Except.ok.injEq]
  constructor
  · rintro ⟨first, h, others, h', rfl⟩
    exact ⟨first, others, h, h', rfl⟩
  · rintro ⟨first, others, h, h', rfl⟩
    exact ⟨first, h, others, h', rfl⟩

theorem read_singleton_iff {field : String × Value} {test : Test} :
    read [field] = .ok test ↔ readField field.1 field.2 = .ok test := by
  rw [read, Outcome.map_eq_ok_iff]
  constructor
  · rintro ⟨tests, h, rfl⟩
    obtain ⟨first, others, hfirst, hrest, rfl⟩ := readFields_cons_iff.1 h
    cases hrest
    exact hfirst
  · intro h
    exact ⟨[test], readFields_cons_iff.2 ⟨test, [], h, rfl, rfl⟩, rfl⟩

theorem reads_singleton_iff {field : String × Value} :
    Reads P [field] ↔ ∃ test, readField field.1 field.2 = .ok test ∧ P test := by
  simp only [Reads, read_singleton_iff]

theorem readable_singleton_iff {key : String} {value : Value} :
    Readable [(key, value)] ↔ ∃ test, readField key value = .ok test := by
  simp only [Readable, read_singleton_iff]

theorem admits_singleton_iff {key : String} {value : Value} {doc : Document} {relevance : Nat} :
    Admits [(key, value)] doc relevance ↔
      ∃ test, readField key value = .ok test ∧ test.holds doc relevance = true :=
  reads_singleton_iff

/-- A body is read as a test with a property if each of its fields is. -/
theorem reads_iff_forall (hP : Conjunctive P) (body : Document) :
    Reads P body ↔ ∀ field ∈ body, Reads P [field] := by
  induction body with
  | nil => simp [reads_iff hP, readFields]
  | cons field rest ih =>
    rw [List.forall_mem_cons, ← ih, reads_iff hP, reads_iff hP rest, reads_singleton_iff]
    simp only [readFields_cons_iff]
    constructor
    · rintro ⟨_, ⟨first, others, h, h', rfl⟩, hold⟩
      exact ⟨⟨first, h, hold first (by simp)⟩, others, h',
        fun test ht => hold test (List.mem_cons_of_mem _ ht)⟩
    · rintro ⟨⟨first, h, hold⟩, others, h', hold'⟩
      exact ⟨_, ⟨first, others, h, h', rfl⟩, List.forall_mem_cons.2 ⟨hold, hold'⟩⟩

/-! ### Arrays of bodies -/

theorem readItems_cons_iff {operator : String} {body : Document} {rest : List Value}
    {tests : List Test} :
    readItems operator (.document body :: rest) = .ok tests ↔
      ∃ first others, read body = .ok first ∧ readItems operator rest = .ok others ∧
        tests = first :: others := by
  rw [readItems]
  simp only [read, Outcome.bind_eq_ok_iff, Outcome.map_eq_ok_iff, Except.ok.injEq]
  constructor
  · rintro ⟨tests, h, others, h', rfl⟩
    exact ⟨_, others, ⟨tests, h, rfl⟩, h', rfl⟩
  · rintro ⟨_, others, ⟨tests, h, rfl⟩, h', rfl⟩
    exact ⟨tests, h, others, h', rfl⟩

/-- The tests of an array of bodies are those of the bodies, in their order. -/
theorem readItems_eq_ok_iff {operator : String} {bodies : List Document} {tests : List Test} :
    readItems operator (bodies.map .document) = .ok tests ↔
      List.Forall₂ (fun body test => read body = .ok test) bodies tests := by
  induction bodies generalizing tests with
  | nil =>
    simp only [List.map_nil, readItems, List.forall₂_nil_left_iff]
    constructor
    · rintro ⟨⟩
      rfl
    · rintro rfl
      rfl
  | cons body rest ih =>
    simp only [List.map_cons, readItems_cons_iff, ih, List.forall₂_cons_left_iff]

theorem exists_tests_iff {bodies : List Document} :
    (∃ tests, List.Forall₂ (fun body test => read body = .ok test) bodies tests) ↔
      ∀ body ∈ bodies, Readable body := by
  induction bodies with
  | nil => simp
  | cons body rest ih =>
    simp only [List.forall_mem_cons, ← ih, List.forall₂_cons_left_iff]
    constructor
    · rintro ⟨_, test, tests, h, h', -⟩
      exact ⟨⟨test, h⟩, tests, h'⟩
    · rintro ⟨⟨test, h⟩, tests, h'⟩
      exact ⟨_, test, tests, h, h', rfl⟩

section Tests

variable {bodies : List Document} {tests : List Test}

theorem forall_tests_iff (h : List.Forall₂ (fun body test => read body = .ok test) bodies tests) :
    (∀ test ∈ tests, P test) ↔ ∀ body ∈ bodies, Reads P body := by
  induction h with
  | nil => simp
  | @cons body test rest others hread _ ih =>
    have hbody : Reads P body ↔ P test := by simp [Reads, hread]
    rw [List.forall_mem_cons, List.forall_mem_cons, ih, hbody]

theorem exists_mem_tests_iff
    (h : List.Forall₂ (fun body test => read body = .ok test) bodies tests) :
    (∃ test ∈ tests, P test) ↔ ∃ body ∈ bodies, Reads P body := by
  induction h with
  | nil => simp
  | @cons body test rest others hread _ ih =>
    have hbody : Reads P body ↔ P test := by simp [Reads, hread]
    rw [List.exists_mem_cons_iff, List.exists_mem_cons_iff, ih, hbody]

/-- An array of bodies under a key that joins them is the test that joins theirs. -/
theorem reads_array_iff {key : String} {join : List Test → Test}
    (h : readField key (.array (bodies.map .document)) =
      if (bodies.map Value.document).isEmpty then fault (.emptyOperand key)
      else (readItems key (bodies.map .document)).map join) :
    Reads P [(key, .array (bodies.map .document))] ↔
      bodies ≠ [] ∧ ∃ tests, List.Forall₂ (fun body test => read body = .ok test) bodies tests ∧
        P (join tests) := by
  rw [reads_singleton_iff, h]
  cases bodies with
  | nil => simp [fault]
  | cons body rest =>
    rw [if_neg (by simp)]
    simp only [Outcome.map_eq_ok_iff, readItems_eq_ok_iff, ne_eq, reduceCtorEq, not_false_eq_true,
      true_and, exists_exists_and_eq_and]

/-- Where a joined test has a property if all of its parts have it. -/
theorem exists_tests_and_iff (join : List Test → Test)
    (hjoin : ∀ tests, P (join tests) ↔ ∀ test ∈ tests, P test) :
    (∃ tests, List.Forall₂ (fun body test => read body = .ok test) bodies tests ∧
        P (join tests)) ↔ ∀ body ∈ bodies, Reads P body := by
  constructor
  · rintro ⟨tests, h, hold⟩
    rw [hjoin, forall_tests_iff h] at hold
    exact hold
  · intro hold
    obtain ⟨tests, h⟩ := exists_tests_iff.2 fun body hb => (hold body hb).readable
    refine ⟨tests, h, ?_⟩
    rwa [hjoin, forall_tests_iff h]

end Tests

theorem readField_and (bodies : List Document) :
    readField "$and" (.array (bodies.map .document)) =
      if (bodies.map Value.document).isEmpty then fault (.emptyOperand "$and")
      else (readItems "$and" (bodies.map .document)).map .all := by
  rw [readField, if_pos rfl]

theorem readField_or (bodies : List Document) :
    readField "$or" (.array (bodies.map .document)) =
      if (bodies.map Value.document).isEmpty then fault (.emptyOperand "$or")
      else (readItems "$or" (bodies.map .document)).map .any := by
  rw [readField, if_neg (by decide), if_pos rfl]

variable {bodies : List Document}

theorem reads_and_iff (hP : Conjunctive P) :
    Reads P [("$and", .array (bodies.map .document))] ↔
      bodies ≠ [] ∧ ∀ body ∈ bodies, Reads P body := by
  rw [reads_array_iff (readField_and bodies), exists_tests_and_iff .all hP]

theorem readable_or_iff : Readable [("$or", .array (bodies.map .document))] ↔
    bodies ≠ [] ∧ ∀ body ∈ bodies, Readable body := by
  simp only [readable_iff_reads]
  refine (reads_array_iff (readField_or bodies)).trans (and_congr_right fun _ => ?_)
  exact exists_tests_and_iff (P := fun _ => True) .any (by simp)

/-- All alternatives have to be readable, also where one of them admits the document. -/
theorem admits_or_iff {doc : Document} {relevance : Nat} :
    Admits [("$or", .array (bodies.map .document))] doc relevance ↔
      (∀ body ∈ bodies, Readable body) ∧ ∃ body ∈ bodies, Admits body doc relevance := by
  refine (reads_array_iff (readField_or bodies)).trans ?_
  constructor
  · rintro ⟨_, tests, h, hold⟩
    rw [holds, holdsAny_iff, exists_mem_tests_iff h] at hold
    exact ⟨exists_tests_iff.1 ⟨tests, h⟩, hold⟩
  · rintro ⟨hread, body, hb, hold⟩
    obtain ⟨tests, h⟩ := exists_tests_iff.2 hread
    refine ⟨List.ne_nil_of_mem hb, tests, h, ?_⟩
    rw [holds, holdsAny_iff, exists_mem_tests_iff h]
    exact ⟨body, hb, hold⟩

/-! ### Single operators -/

theorem ne_of_isOperatorKey {key operator : String} (h : isOperatorKey key = false)
    (hoperator : isOperatorKey operator = true) : key ≠ operator := by
  rintro rfl
  rw [h] at hoperator
  cases hoperator

/-- Under a key that names a field there is a condition on the values there. -/
theorem readField_of_field {path : String} (h : isOperatorKey path = false) (value : Value) :
    readField path value = readCondition path value := by
  have hand : path ≠ "$and" := ne_of_isOperatorKey h (by decide)
  have hor : path ≠ "$or" := ne_of_isOperatorKey h (by decide)
  have hother : readOther path value = readCondition path value := by
    rw [readOther, if_neg (ne_of_isOperatorKey h (by decide)), if_neg (by simp [h])]
  rw [← hother]
  unfold readField
  split
  · rw [if_neg hand, if_neg hor]
  · rw [if_neg (by simp [hand, hor])]

theorem isOperatorKey_in : isOperatorKey "$in" = true := by decide

theorem readCondition_in (path : String) (values : List Value) :
    readCondition path (.document [("$in", .array values)]) = .ok (.oneOf path values) := by
  rw [readCondition, if_pos isOperatorKey_in]
  rfl

theorem readField_in {path : String} (h : isOperatorKey path = false) (values : List Value) :
    readField path (.document [("$in", .array values)]) = .ok (.oneOf path values) := by
  rw [readField_of_field h, readCondition_in]

/-- A body that asks for one of some values is read in no other way, whatever its path is. -/
theorem readable_in_iff {path : String} {values : List Value} :
    Readable [(path, .document [("$in", .array values)])] ↔ isOperatorKey path = false := by
  rw [readable_singleton_iff]
  constructor
  · rintro ⟨test, h⟩
    rw [readField] at h
    · split at h
      · cases h
      · unfold readOther at h
        split at h
        · cases h
        · split at h
          · cases h
          · next hop => simpa using hop
    · simp
  · exact fun h => ⟨_, readField_in h values⟩

/-- A text search is always readable, and the relevance decides it. -/
theorem readField_text (search : String) :
    readField "$text" (.document [("$search", .string search)]) = .ok (.text search) := by
  rfl

end DocQuery.Test
