import DocQuery.Proofs.Outcome
import DocQuery.Proofs.Store.Stages

/-!
# What leaves a run open

Where the keys of a sort are no order on its rows, what comes out is left open.  Nothing else in a store is:
to read the body of a stage, to filter, to unwind, to cut and to project gives rows or a refusal
(`settled_runMatch`, `settled_runProject`).  So the sort stage of a query is the only one that can leave its run
open, and it does so exactly if its rows are not sortable (`runStage_sort_eq_unordered_iff`).
-/

namespace DocQuery

/-- A result or a refusal: nothing is left open. -/
def Settled {α : Type} (x : Except StoreError α) : Prop := x ≠ .error .unordered

namespace Settled

variable {α β : Type} {x : Except StoreError α}

theorem ok (a : α) : Settled (.ok a : Except StoreError α) := nofun

theorem refused (fault : PipelineFault) :
    Settled (.error (.invalidPipeline fault) : Except StoreError α) := nofun

theorem bind {f : α → Except StoreError β} (hx : Settled x) (hf : ∀ a, Settled (f a)) :
    Settled (x >>= f) := by
  cases x with
  | error e => exact fun h => hx (congrArg Except.error (Except.error.inj h))
  | ok a => exact hf a

/-- A sequence whose first part is settled is left open by its second part. -/
theorem bind_eq_unordered_iff {f : α → Except StoreError β} (hx : Settled x) :
    (x >>= f) = .error .unordered ↔ ∃ a, x = .ok a ∧ f a = .error .unordered := by
  cases x with
  | error e =>
    exact iff_of_false (fun h => hx (congrArg Except.error (Except.error.inj h))) (by simp)
  | ok a => simp [Outcome.ok_bind]

theorem map (hx : Settled x) (f : α → β) : Settled (x.map f) := by
  cases x with
  | error e => exact fun h => hx (congrArg Except.error (Except.error.inj h))
  | ok a => exact .ok (f a)

theorem mapM {f : α → Except StoreError β} {xs : List α} (h : ∀ x ∈ xs, Settled (f x)) :
    Settled (xs.mapM f) := by
  induction xs with
  | nil => exact .ok []
  | cons x rest ih =>
    rw [List.forall_mem_cons] at h
    rw [List.mapM_cons]
    exact h.1.bind fun first => (ih h.2).bind fun others => .ok (first :: others)

end Settled

/-! ### Reading the body of a match stage -/

namespace Test

theorem settled_readPattern (path pattern options : String) :
    Settled (readPattern path pattern options) := by
  unfold readPattern
  split
  · exact .ok _
  · exact .refused _

theorem settled_items (operator : String) (operand : Value) : Settled (items operator operand) := by
  unfold items
  split
  · exact .ok _
  · exact .refused _

theorem settled_readOperator (path : String) (ops : Document) (operator : String) (operand : Value) :
    Settled (readOperator path ops operator operand) := by
  unfold readOperator
  split
  case h_7 | h_8 => exact (settled_items _ _).map _
  case h_10 =>
    dsimp only
    split
    · exact (settled_readPattern _ _ _).map _
    · exact (settled_readPattern _ _ _).map _
    · exact .refused _
  case h_11 =>
    split
    · exact .ok _
    · exact .refused _
  case h_12 => exact .refused _
  all_goals exact .ok _

theorem settled_readOperators (path : String) (ops : Document) (fields : List (String × Value)) :
    Settled (readOperators path ops fields) := by
  induction fields with
  | nil => exact .ok []
  | cons field rest ih =>
    exact (settled_readOperator path ops field.1 field.2).bind fun _ => ih.bind fun _ => .ok _

theorem settled_readCondition (path : String) (value : Value) : Settled (readCondition path value) := by
  unfold readCondition
  split
  · split
    · exact (settled_readOperators _ _ _).map _
    · exact .ok _
  · exact settled_readPattern _ _ _
  · exact .ok _

theorem settled_readOther (key : String) (value : Value) : Settled (readOther key value) := by
  unfold readOther
  split
  · refine Settled.map ?_ _
    unfold searchText
    split
    · split
      · exact .ok _
      · exact .refused _
    · exact .refused _
  · split
    · exact .refused _
    · exact settled_readCondition key value

mutual

theorem settled_readFields (fields : List (String × Value)) : Settled (readFields fields) := by
  match fields with
  | [] => exact .ok []
  | (key, value) :: rest =>
    exact (settled_readField key value).bind fun _ => (settled_readFields rest).bind fun _ => .ok _

theorem settled_readField (key : String) (value : Value) : Settled (readField key value) := by
  unfold readField
  split
  · next values =>
    have hitems (operator : String) (join : List Test → Test) : Settled
        (if values.isEmpty then fault (.emptyOperand operator) else (readItems operator values).map join) := by
      split
      · exact .refused _
      · exact (settled_readItems operator values).map _
    split
    · exact hitems _ _
    · split
      · exact hitems _ _
      · exact settled_readOther _ _
  · split
    · exact .refused _
    · exact settled_readOther _ _

theorem settled_readItems (operator : String) (items : List Value) : Settled (readItems operator items) := by
  match items with
  | [] => exact .ok []
  | value :: rest =>
    cases value with
    | document fields =>
      exact (settled_readFields fields).bind fun _ => (settled_readItems operator rest).bind fun _ => .ok _
    | _ => exact .refused _

end

theorem settled_read (body : Document) : Settled (read body) := (settled_readFields body).map _

end Test

/-! ### Running stages -/

namespace Execution

variable (textIndex : List String) (rows : List Row)

theorem settled_runMatch (body : Document) : Settled (runMatch textIndex rows body) := by
  refine (Test.settled_read body).bind fun test => ?_
  split
  · exact .ok _
  · split
    · exact .refused _
    · exact .ok _

theorem settled_runProject (body : Document) (row : Row) : Settled (runProject body row) := by
  refine Settled.map (Settled.map ?_ _) _
  unfold Projection.isInclusion
  dsimp only
  split
  · exact .refused _
  · exact .ok _

theorem settled_runUnwind (body : Value) : Settled (runUnwind rows body) := by
  refine Settled.bind ?_ fun (written, keepEmpty) => ?_
  · unfold unwindBody
    split
    · exact .ok _
    · split
      · exact .ok _
      · exact .refused _
    · exact .refused _
  · dsimp only
    split
    · exact .ok _
    · exact .refused _

/-- All stages apart from sorts and facets are settled. -/
theorem settled_runStage {name : String} (body : Value) (hsort : name ≠ "$sort")
    (hfacet : name ≠ "$facet") : Settled (runStage textIndex rows [(name, body)]) := by
  have hcount (cut : Nat → List Row → List Row) : Settled (runWithCount rows name body cut) := by
    unfold runWithCount
    split
    · exact .ok _
    · exact .refused _
  have hdocument (fields : Document) : Settled (runWithDocument textIndex rows name fields) := by
    unfold runWithDocument
    split
    · exact settled_runMatch textIndex rows fields
    · exact absurd rfl hsort
    · exact .mapM fun row _ => settled_runProject fields row
    · exact .ok _
    · exact .ok _
    · exact .refused _
  have hsimple : Settled (runSimple textIndex rows name body) := by
    unfold runSimple
    split
    · exact hcount _
    · exact hcount _
    · exact settled_runUnwind rows body
    · unfold runCount
      split
      · split
        · exact .ok _
        · exact .ok _
      · exact .refused _
    · split
      · split
        · exact hdocument _
        · exact .refused _
      · exact .refused _
  rw [runStage]
  cases body with
  | document fields =>
    rw [runBody, if_neg hfacet]
    exact hsimple
  | _ => exact hsimple

theorem settled_runStages {stages : List Document}
    (h : ∀ stage ∈ stages, ∃ name body, name ≠ "$sort" ∧ name ≠ "$facet" ∧ stage = [(name, body)]) :
    Settled (runStages textIndex rows stages) := by
  induction stages generalizing rows with
  | nil => exact .ok rows
  | cons stage rest ih =>
    rw [List.forall_mem_cons] at h
    obtain ⟨name, body, hsort, hfacet, rfl⟩ := h.1
    rw [runStages_cons]
    exact (settled_runStage textIndex rows body hsort hfacet).bind fun next => ih next h.2

theorem settled_sortKeys (body : Document) : Settled (sortKeys body) := by
  refine .mapM fun (path, value) _ => ?_
  dsimp only
  split
  · exact .ok _
  · exact .refused _

/-- A sort stage is left open exactly if its keys are no order on more rows than are always sorted. -/
theorem runStage_sort_eq_unordered_iff {body : Document} :
    runStage textIndex rows (Stage.toDocument (.sort body)) = .error .unordered ↔
      ∃ keys, sortKeys body = .ok keys ∧ ¬Sortable (Row.compare keys) rows := by
  rw [runStage_sort, (settled_sortKeys body).bind_eq_unordered_iff]
  simp only [Row.sort, stableSort_eq_error_iff, and_true]

/-- Numbers that go down, with one in the middle that is none. -/
def countdown : List Row :=
  (List.range 21).map fun i =>
    .ofDocument [("v", if i = 10 then .double .nan else .int32 (21 - Int32.ofNat i))]

example : ¬Sortable (Row.compare [("v", .ascending)]) countdown := by decide +kernel

end Execution

end DocQuery
