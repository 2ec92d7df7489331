import DocQuery.Proofs.Outcome
import DocQuery.Query.Pipeline
import DocQuery.Store.Execution

/-!
# What the stages of a query do

`runStages` runs a pipeline one stage after the other, so a pipeline in two parts is run part by part
(`runStages_append`).  The lemmas `runStage_…` say of each stage that a query lays out what the store
makes of its document: none of them can be refused for its shape.
-/

namespace DocQuery.Execution

variable (textIndex : List String) (rows : List Row)

/-! ### Pipelines -/

@[simp] theorem runStages_nil : runStages textIndex rows [] = .ok rows := rfl

theorem runStages_cons (stage : Document) (rest : List Document) :
    runStages textIndex rows (stage :: rest) =
      runStage textIndex rows stage >>= fun rows => runStages textIndex rows rest := rfl

theorem runStages_append (stages others : List Document) :
    runStages textIndex rows (stages ++ others) =
      runStages textIndex rows stages >>= fun rows => runStages textIndex rows others := by
  simp [runStages]

theorem runStages_singleton (stage : Document) :
    runStages textIndex rows [stage] = runStage textIndex rows stage := by
  rw [runStages_cons]
  exact bind_pure _

/-- The pipelines inside of a facet stage run like whole ones. -/
theorem runItems_eq_runStages (stages : List Document) :
    runItems textIndex rows (stages.map .document) = runStages textIndex rows stages := by
  induction stages generalizing rows with
  | nil => rfl
  | cons stage rest ih =>
    rw [List.map_cons, runItems, runStages_cons]
    simp only [ih]

/-! ### Single stages -/

theorem runStage_filter (body : Document) :
    runStage textIndex rows (Stage.toDocument (.filter body)) = runMatch textIndex rows body := by
  rw [Stage.toDocument, runStage, runBody, if_neg (by decide)]
  rfl

theorem runStage_sort (body : Document) :
    runStage textIndex rows (Stage.toDocument (.sort body)) =
      sortKeys body >>= fun keys => Row.sort keys rows := by
  rw [Stage.toDocument, runStage, runBody, if_neg (by decide)]
  rfl

theorem runStage_project (body : Document) :
    runStage textIndex rows (Stage.toDocument (.project body)) = rows.mapM (runProject body) := by
  rw [Stage.toDocument, runStage, runBody, if_neg (by decide)]
  rfl

theorem runUnwind_of_body {body : Value} {field : String} {keepEmpty : Bool}
    (hbody : unwindBody body = .ok ("$" ++ field, keepEmpty)) :
    runUnwind rows body = .ok (rows.flatMap (unwindRow (Path.ofText field) keepEmpty)) := by
  have hlist : ("$" ++ field).toList = '$' :: field.toList := by simp
  rw [runUnwind, hbody, Outcome.ok_bind]
  simp [hlist]

theorem runStage_unwind (path : String) (keepEmpty : Bool) :
    runStage textIndex rows (Stage.toDocument (.unwind path keepEmpty)) =
      .ok (rows.flatMap (unwindRow (Path.ofText path) keepEmpty)) := by
  rw [Stage.toDocument, runStage, runBody, if_neg (by decide)]
  exact runUnwind_of_body rows rfl

/-- A count that is written as a value of 64 bits reads as the count, or as the greatest one. -/
theorem asCount_ofCount (n : Nat) : (Value.ofCount n).asCount? = some (min n (twoTo 63 - 1)) := by
  have hmax : twoTo 63 - 1 = 9223372036854775807 := by decide
  have hint : (Int64.ofInt (min n (twoTo 63 - 1) : Nat)).toInt = (min n (twoTo 63 - 1) : Nat) :=
    Int64.toInt_ofInt_of_le (by omega) (by omega)
  rw [Value.ofCount, Value.asCount?, hint, if_pos (Int.natCast_nonneg _), Int.toNat_natCast]

theorem runStage_skip (n : UInt64) :
    runStage textIndex rows (Stage.toDocument (.skip n)) =
      .ok (rows.drop (min n.toNat (twoTo 63 - 1))) := by
  have hcount : runWithCount rows "$skip" (Value.ofCount n.toNat) List.drop =
      .ok (rows.drop (min n.toNat (twoTo 63 - 1))) := by
    rw [runWithCount, asCount_ofCount]
  rw [← hcount]
  rfl

theorem runStage_limit (n : UInt64) :
    runStage textIndex rows (Stage.toDocument (.limit n)) =
      .ok (rows.take (min n.toNat (twoTo 63 - 1))) := by
  have hcount : runWithCount rows "$limit" (Value.ofCount n.toNat) List.take =
      .ok (rows.take (min n.toNat (twoTo 63 - 1))) := by
    rw [runWithCount, asCount_ofCount]
  rw [← hcount]
  rfl

theorem runStage_count (field : String) :
    runStage textIndex rows (Stage.toDocument (.count field)) =
      .ok (if rows.isEmpty then [] else [.ofDocument [(field, Value.ofCount rows.length)]]) := by
  have hcount : runStage textIndex rows (Stage.toDocument (.count field)) =
    runCount rows (.string field) := rfl
  rw [hcount, runCount]
  split <;> rfl

/-! ### Pipelines side by side -/

theorem toValues_eq_map (stages : List Stage) :
    Stage.toValues stages = (stages.map Stage.toDocument).map .document := by
  induction stages with
  | nil => rfl
  | cons stage rest ih => rw [Stage.toValues, ih, List.map_cons, List.map_cons]

/-- The documents of rows in an array. -/
def documentsOf (rows : List Row) : Value := .array (rows.map fun row => .document row.doc)

theorem runFacets_cons (done : Document) (name : String) (stages : List Stage)
    (rest : List (String × Value)) :
    runFacets textIndex rows done ((name, .array (Stage.toValues stages)) :: rest) =
      runStages textIndex rows (stages.map Stage.toDocument) >>= fun result =>
        runFacets textIndex rows (done.put name (documentsOf result)) rest := by
  have hall : ((stages.map Stage.toDocument).map Value.document).all isDocument = true := by
    simp [isDocument]
  rw [runFacets, toValues_eq_map, if_pos hall, runItems_eq_runStages]
  rfl

/-- Both pipelines of a page run over the same rows, the one for the total first. -/
theorem runStage_facet (total data : List Stage) :
    runStage textIndex rows (Stage.toDocument (.facet total data)) = (do
      let counted ← runStages textIndex rows (total.map Stage.toDocument)
      let found ← runStages textIndex rows (data.map Stage.toDocument)
      .ok [.ofDocument [(totalField, documentsOf counted), (dataField, documentsOf found)]]) := by
  rw [Stage.toDocument, runStage, runBody, if_pos rfl, runFacets_cons]
  cases runStages textIndex rows (total.map Stage.toDocument) with
  | error e => rfl
  | ok counted =>
    show (runFacets textIndex rows _ _).map _ = _
    rw [runFacets_cons]
    cases runStages textIndex rows (data.map Stage.toDocument) <;> rfl

end DocQuery.Execution
