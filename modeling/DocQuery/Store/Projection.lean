import DocQuery.Path
import DocQuery.Store.Error

/-!
# Projecting documents

The body of a projection stage either names the fields to take or the fields to leave out. Dotted
keys are written as nested documents first. Which of the two a body means is read off its flags;
`_id` is taken by default and may be left out of either kind.
-/

namespace DocQuery.Projection

/-- A field that asks for the relevance of a document. -/
def isMeta : Value → Bool
  | .document fields => Document.contains fields "$meta"
  | _ => false

/-! ### Dotted keys -/

/-- Computes the value at a path from the one that is there; what stands in the way is replaced. -/
def adjustAt (f : Option Value → Value) : Document → Path → Document
  | doc, [] => doc
  | doc, [key] => Keyed.adjust key f doc
  | doc, key :: rest =>
    Keyed.adjust key (fun
      | some (.document sub) => .document (adjustAt f sub rest)
      | _ => .document (adjustAt f [] rest)) doc

mutual

/-- What stands at a place after a value is put there: two documents become one. -/
def mergeValue (existing : Option Value) : Value → Value
  | .document incoming =>
    match existing with
    | some (.document fields) => .document (mergeFields fields incoming)
    | _ => .document incoming
  | value => value

/-- Fields put into a document at the paths that their keys write. -/
def mergeFields (doc : Document) : List (String × Value) → Document
  | [] => doc
  | (key, value) :: rest =>
    let put (existing : Option Value) : Value := mergeValue existing value
    mergeFields (adjustAt put doc (Path.ofText key)) rest

end

mutual

/-- A value of a body with its dotted keys written as documents. -/
def expandValue : Value → Value
  | .document fields =>
    if isMeta (.document fields) then .document fields else .document (expandFields [] fields)
  | value => value

/-- Fields of a body put into a document one after the other. -/
def expandFields (doc : Document) : List (String × Value) → Document
  | [] => doc
  | (key, value) :: rest =>
    let expanded := expandValue value
    let put (existing : Option Value) : Value := mergeValue existing expanded
    expandFields (adjustAt put doc (Path.ofText key)) rest

end

/-- A body with its dotted keys written as documents. -/
def expand (body : Document) : Document := expandFields [] body

/-! ### Kinds of bodies -/

/-- Whether a body has flags that take a field, and flags that leave one out. -/
structure Flags where
  takes : Bool
  leavesOut : Bool

def Flags.or (a b : Flags) : Flags := ⟨a.takes || b.takes, a.leavesOut || b.leavesOut⟩

mutual

/-- The flags of a field. -/
def flagsOf : Value → Flags
  | .document fields =>
    if isMeta (.document fields) then ⟨false, false⟩ else flagsOfFields false fields
  | value => ⟨value.truthy, !value.truthy⟩

/-- The flags of fields; at the top `_id` does not count. -/
def flagsOfFields (top : Bool) : List (String × Value) → Flags
  | [] => ⟨false, false⟩
  | (key, value) :: rest =>
    let others := flagsOfFields top rest
    if top && key == "_id" then others else (flagsOf value).or others

end

/-- Whether a body names the fields to take. A body that only takes `_id` does, too. -/
def isInclusion (body : Document) : Except StoreError Bool :=
  let flags := flagsOfFields true body
  if flags.takes && flags.leavesOut then .error (.invalidPipeline .mixedProjection)
  else
    let takesId := match body.get? "_id" with
      | some value => value.truthy
      | none => false
    .ok (flags.takes || (!flags.leavesOut && takesId))

/-! ### Taking and leaving out -/

/-- The relevance of a document as a value. -/
def scoreValue (relevance : Nat) : Value := .double (Double.ofNat relevance)

mutual

/-- What is taken of the value of a field. A document of flags reaches into documents and into the
documents of an array, of which nothing else stays. -/
def takeValue (relevance : Nat) (found : Option Value) : Value → Option Value
  | .document flags =>
    match found with
    | some (.document fields) => some (.document (takeFields relevance fields [] flags))
    | some (.array items) =>
      some (.array (items.filterMap fun
        | .document fields => some (.document (takeFields relevance fields [] flags))
        | _ => none))
    | _ => none
  | flag => if flag.truthy then found else none

/-- The fields that flags take of a document, put behind those of `done`. -/
def takeFields (relevance : Nat) (source done : Document) : List (String × Value) → Document
  | [] => done
  | (key, flag) :: rest =>
    let next :=
      if isMeta flag then done.put key (scoreValue relevance)
      else
        match takeValue relevance (source.get? key) flag with
        | some value => done.put key value
        | none => done
    takeFields relevance source next rest

end

/-- The fields that a body takes of a document; `_id` comes first, unless it is left out. -/
def take (relevance : Nat) (source body : Document) : Document :=
  let takesId := match body.get? "_id" with
    | some value => value.truthy
    | none => true
  let start : Document := match source.get? "_id" with
    | some id => if takesId then [("_id", id)] else []
    | none => []
  takeFields relevance source start (body.filter fun field => field.1 != "_id")

mutual

/-- What stays of the value of a field. A document of flags reaches into documents and into the
documents of an array; a flag that takes a field changes nothing. -/
def restValue (relevance : Nat) (found : Option Value) : Value → Option Value
  | .document flags =>
    match found with
    | some (.document fields) => some (.document (restFields relevance fields flags))
    | some (.array items) =>
      some (.array (items.map fun
        | .document fields => .document (restFields relevance fields flags)
        | value => value))
    | found => found
  | flag => if flag.truthy then found else none

/-- A document without the fields that flags leave out. -/
def restFields (relevance : Nat) (doc : Document) : List (String × Value) → Document
  | [] => doc
  | (key, flag) :: rest =>
    let next :=
      if isMeta flag then doc.put key (scoreValue relevance)
      else
        match restValue relevance (doc.get? key) flag with
        | some value => doc.put key value
        | none => doc.erase key
    restFields relevance next rest

end

/-- A document after a projection stage with a body. -/
def project (relevance : Nat) (doc body : Document) : Except StoreError Document :=
  let body := expand body
  (isInclusion body).map fun inclusion =>
    if inclusion then take relevance doc body else restFields relevance doc body

end DocQuery.Projection
