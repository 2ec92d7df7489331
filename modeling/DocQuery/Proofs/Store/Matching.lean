import DocQuery.Proofs.Filter.Reading
import DocQuery.Store.Basic

/-!
# Match stages decide each document on its own

`StoredCollection.Finds` says that a document of a collection passes a match stage all by itself.
The documents that pass a match stage over a whole collection are exactly those
(`docs_of_runMatch`), in their order.
-/

namespace DocQuery

namespace Execution

variable {textIndex : List String} {rows passed : List Row} {body : Document}

/-- A row with the relevance that the text search in a test gives it. -/
def rated (textIndex : List String) (test : Test) (row : Row) : Row :=
  match test.search? with
  | none => row
  | some search => ⟨row.doc, Row.relevanceOf textIndex (Row.searchWords search) row.doc⟩

@[simp] theorem rated_doc (textIndex : List String) (test : Test) (row : Row) :
    (rated textIndex test row).doc = row.doc := by
  unfold rated
  split <;> rfl

/-- Whether a row passes a test after it got its relevance. -/
def passes (textIndex : List String) (test : Test) (row : Row) : Bool :=
  test.holds row.doc (rated textIndex test row).relevance

theorem runMatch_eq_ok_iff : runMatch textIndex rows body = .ok passed ↔
    ∃ test, Test.read body = .ok test ∧ (test.search? = none ∨ textIndex ≠ []) ∧
      passed = (rows.filter (passes textIndex test)).map (rated textIndex test) := by
  rw [runMatch, Outcome.bind_eq_ok_iff]
  refine exists_congr fun test => and_congr_right fun _ => ?_
  cases hsearch : test.search? with
  | none =>
    have hrated : rated textIndex test = id := by
      funext row
      simp [rated, hsearch]
    have hpasses : passes textIndex test = fun row => test.holds row.doc row.relevance := by
      funext row
      simp [passes, hrated]
    simp only [hrated, hpasses, List.map_id, true_or, true_and, Except.ok.injEq]
    exact eq_comm
  | some search =>
    have hrated : ∀ row, rated textIndex test row =
        ⟨row.doc, Row.relevanceOf textIndex (Row.searchWords search) row.doc⟩ := by
      intro row
      simp [rated, hsearch]
    cases textIndex with
    | nil => simp [fault]
    | cons path rest =>
      have hmap : rated (path :: rest) test = fun row =>
          ⟨row.doc, Row.relevanceOf (path :: rest) (Row.searchWords search) row.doc⟩ := funext hrated
      have hpasses : passes (path :: rest) test = fun row =>
          test.holds row.doc (Row.relevanceOf (path :: rest) (Row.searchWords search) row.doc) := by
        funext row
        rw [passes, hrated]
      simp only [List.isEmpty_cons, Bool.false_eq_true, if_false, reduceCtorEq, ne_eq,
        not_false_eq_true, or_true, true_and, Except.ok.injEq]
      rw [List.filter_map, eq_comm, hmap, hpasses]
      rfl

/-- The body of a match stage that everything passes. -/
theorem runMatch_nil (textIndex : List String) (rows : List Row) :
    runMatch textIndex rows [] = .ok rows := by
  refine runMatch_eq_ok_iff.2 ⟨.all [], rfl, .inl rfl, ?_⟩
  have hrated : rated textIndex (.all []) = id := rfl
  have hpasses : passes textIndex (.all []) = fun _ => true := rfl
  rw [hrated, hpasses, List.filter_true, List.map_id]

end Execution

namespace StoredCollection

open Execution

/-- A document of a collection that is found with a filter: it passes a match stage on its own. -/
def Finds (c : StoredCollection) (body doc : Document) : Prop :=
  ∃ row, runMatch c.textIndex [.ofDocument doc] body = .ok [row]

/-- The store runs a match stage with this body over a collection. -/
def Accepts (c : StoredCollection) (body : Document) : Prop :=
  ∃ passed, runMatch c.textIndex (c.docs.map .ofDocument) body = .ok passed

/-- A document of a collection with the relevance that a match stage gives it. -/
def row (c : StoredCollection) (body doc : Document) : Row :=
  match Test.read body with
  | .ok test => rated c.textIndex test (.ofDocument doc)
  | .error _ => .ofDocument doc

variable {c : StoredCollection} {body : Document}

/-- A body is refused if it cannot be read, or if it searches for text without an index. -/
theorem accepts_iff :
    c.Accepts body ↔ Test.Readable body ∧ (Test.Quiet body ∨ c.textIndex ≠ []) := by
  simp only [Accepts, runMatch_eq_ok_iff, Test.Readable, Test.Quiet]
  constructor
  · rintro ⟨_, test, hread, hquiet | hindex, -⟩
    · exact ⟨⟨test, hread⟩, .inl ⟨test, hread, hquiet⟩⟩
    · exact ⟨⟨test, hread⟩, .inr hindex⟩
  · rintro ⟨⟨test, hread⟩, ⟨quiet, hquiet, hsearch⟩ | hindex⟩
    · exact ⟨_, quiet, hquiet, .inl hsearch, rfl⟩
    · exact ⟨_, test, hread, .inr hindex, rfl⟩

/-- A document is found if the body admits it with the relevance that the match stage gives it. -/
theorem finds_iff_admits (h : c.Accepts body) {doc : Document} :
    c.Finds body doc ↔ Test.Admits body doc (c.row body doc).relevance := by
  obtain ⟨_, test, hread, hindex, -⟩ := h.imp fun _ => runMatch_eq_ok_iff.1
  have hadmits : Test.Admits body doc (c.row body doc).relevance ↔
      passes c.textIndex test (.ofDocument doc) = true := by
    simp [Test.Admits, row, hread, passes, Row.ofDocument]
  simp only [hadmits, Finds, runMatch_eq_ok_iff]
  constructor
  · rintro ⟨row, other, hother, -, hrow⟩
    obtain rfl : test = other := Except.ok.inj (hread.symm.trans hother)
    by_contra hfails
    simp [hfails] at hrow
  · intro hpasses
    exact ⟨rated c.textIndex test (.ofDocument doc), test, hread, hindex, by simp [hpasses]⟩

open Classical in
/-- A match stage lets those documents pass that pass it on their own, each with its relevance. -/
theorem rows_of_runMatch {passed : List Row}
    (h : runMatch c.textIndex (c.docs.map .ofDocument) body = .ok passed) :
    passed = (c.docs.filter fun doc => decide (c.Finds body doc)).map (c.row body) := by
  have haccepts : c.Accepts body := ⟨passed, h⟩
  obtain ⟨test, hread, -, rfl⟩ := runMatch_eq_ok_iff.1 h
  have hrow : c.row body = rated c.textIndex test ∘ Row.ofDocument := by
    funext doc
    simp [row, hread]
  have hpasses : (passes c.textIndex test ∘ Row.ofDocument) =
      fun doc => decide (c.Finds body doc) := by
    funext doc
    rw [Bool.eq_iff_iff, decide_eq_true_iff, finds_iff_admits haccepts]
    simp [Test.Admits, hrow, hread, passes, Row.ofDocument]
  rw [List.filter_map, hpasses, List.map_map, hrow]

open Classical in
theorem docs_of_runMatch {passed : List Row}
    (h : runMatch c.textIndex (c.docs.map .ofDocument) body = .ok passed) :
    passed.map Row.doc = c.docs.filter fun doc => decide (c.Finds body doc) := by
  have hdoc : Row.doc ∘ c.row body = id := by
    funext doc
    simp only [Function.comp, row, id]
    split
    · rw [rated_doc, Row.ofDocument]
    · rfl
  rw [rows_of_runMatch h, List.map_map, hdoc, List.map_id]

end StoredCollection

end DocQuery
