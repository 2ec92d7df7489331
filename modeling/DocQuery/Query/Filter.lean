import DocQuery.Path

/-!
# Filters

The filter of a request is a Boolean combination of clauses. A clause on a joined field is decided
in another collection: it has a slot of its own, under which the ids that match there are filed
before the filter is rendered. `Filter.toDocument` writes the whole filter as one document in which
no clause overwrites another one.
-/

namespace DocQuery

/-- A clause that is decided in another collection. -/
structure JoinedClause where
  /-- under which the ids that match are filed -/
  slot : Nat
  /-- the field that holds ids -/
  field : String
  /-- where the ids belong -/
  collection : String
  /-- what the documents there satisfy -/
  condition : Document

inductive Clause where
  /-- a condition on the values at a path -/
  | field (path : String) (condition : Value)
  | joined (clause : JoinedClause)
  | all (clauses : List Clause)
  | any (clauses : List Clause)

/-- The ids filed under each slot. -/
abbrev ResolvedIds := List (Nat × List Value)

/-- The ids under a slot; a slot with nothing filed has none. -/
def ResolvedIds.get (resolved : ResolvedIds) (slot : Nat) : List Value :=
  (resolved.lookup slot).getD []

namespace Clause

mutual

/-- A clause as a document. A conjunction of one clause is that clause. -/
def toDocument (resolved : ResolvedIds) : Clause → Document
  | .field path condition => [(path, condition)]
  | .joined clause =>
    [(clause.field, .document [("$in", .array (resolved.get clause.slot))])]
  | .all [only] => only.toDocument resolved
  | .all clauses => [("$and", .array (toValues resolved clauses))]
  | .any clauses => [("$or", .array (toValues resolved clauses))]

/-- Clauses as documents in an array. -/
def toValues (resolved : ResolvedIds) : List Clause → List Value
  | [] => []
  | clause :: rest => .document (clause.toDocument resolved) :: toValues resolved rest

end

mutual

/-- The clauses on joined fields, in the order in which they stand. -/
def joins : Clause → List JoinedClause
  | .field _ _ => []
  | .joined clause => [clause]
  | .all clauses => joinsOf clauses
  | .any clauses => joinsOf clauses

def joinsOf : List Clause → List JoinedClause
  | [] => []
  | clause :: rest => clause.joins ++ joinsOf rest

end

end Clause

/-- The filter of a request: every clause of `all` holds, one of `any` if there are any, and the
documents fit the text that is searched for. -/
structure Filter where
  all : List Clause
  any : List Clause
  text : Option String
  /-- the next slot that is free -/
  nextSlot : Nat

namespace Filter

/-- The filter that everything passes. -/
def empty : Filter := ⟨[], [], none, 0⟩

def isEmpty (filter : Filter) : Bool :=
  filter.all.isEmpty && filter.any.isEmpty && filter.text.isNone

/-- A clause on a joined field, with a slot of its own. -/
def newJoin (filter : Filter) (field collection : String) (condition : Document) :
    Clause × Filter :=
  (.joined ⟨filter.nextSlot, field, collection, condition⟩,
    { filter with nextSlot := filter.nextSlot + 1 })

def addAll (filter : Filter) (clause : Clause) : Filter :=
  { filter with all := filter.all ++ [clause] }

def addAny (filter : Filter) (clause : Clause) : Filter :=
  { filter with any := filter.any ++ [clause] }

/-- A clause put into a list that is ordered by slots, behind those with the same one. -/
def insertBySlot (clause : JoinedClause) : List JoinedClause → List JoinedClause
  | [] => [clause]
  | first :: rest =>
    if clause.slot < first.slot then clause :: first :: rest
    else first :: insertBySlot clause rest

/-- The clauses on joined fields, in the order of their slots. -/
def joins (filter : Filter) : List JoinedClause :=
  (Clause.joinsOf (filter.all ++ filter.any)).foldl (fun done clause => insertBySlot clause done) []

/-- A key that names an operator, not a field. -/
def isOperatorKey (key : String) : Bool := key.toList.head? == some '$'

/-- The document so far and the clauses that could not be put into it. -/
structure Rendering where
  fields : Document
  apart : List Value

/-- One more clause: its fields join those that are there, unless one of them is there already or
is an operator. -/
def Rendering.add (done : Rendering) (clause : Document) : Rendering :=
  if clause.any fun (key, _) => isOperatorKey key || done.fields.contains key then
    { done with apart := done.apart ++ [.document clause] }
  else { done with fields := Keyed.putAll done.fields clause }

/-- The filter as the body of a match stage. A clause on a joined field whose ids are not known
matches nothing. -/
def toDocument (filter : Filter) (resolved : ResolvedIds) : Document :=
  let done := filter.all.foldl (fun done clause => done.add (clause.toDocument resolved))
    (⟨[], []⟩ : Rendering)
  let withAny :=
    if filter.any.isEmpty then done.fields
    else done.fields.put "$or" (.array (Clause.toValues resolved filter.any))
  let withText :=
    match filter.text with
    | some text => withAny.put "$text" (.document [("$search", .string text)])
    | none => withAny
  if done.apart.isEmpty then withText else withText.put "$and" (.array done.apart)

end Filter

end DocQuery
