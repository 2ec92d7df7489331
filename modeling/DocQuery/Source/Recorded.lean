import DocQuery.Source.Basic

/-!
# Recorded sources

A recorded source keeps the pipelines that it was asked to run, in their order. Answers can be laid
out for it in advance: as long as there are any, it gives the next one of them instead of asking its
store.
-/

namespace DocQuery

/-- A store, the answers laid out for it, and the pipelines that it was asked to run. -/
structure Recording where
  store : Store
  answers : List (Except StoreError (List Document))
  calls : List (String × List Document)

namespace Recording

def ofStore (store : Store) : Recording := ⟨store, [], []⟩

/-- The answer to a pipeline, and the recording after it. -/
def execute (r : Recording) (name : String) (stages : List Document) :
    Except StoreError (List Document) × Recording :=
  let calls := r.calls ++ [(name, stages)]
  match r.answers with
  | answer :: rest => (answer, { r with answers := rest, calls := calls })
  | [] => (r.store.execute name stages, { r with calls := calls })

/-- The source that answers from a recording and keeps it up. -/
def source : Source (StateM Recording) where
  execute name stages := ExceptT.mk fun r => r.execute name stages

end Recording

end DocQuery
