import DocQuery.Path
import DocQuery.Pattern.Places
import DocQuery.Pattern.Reader
import DocQuery.Store.Error
import DocQuery.Value.Order

/-!
# Matching documents

The body of a match stage is read into a `Test`, a Boolean combination of tests on the values at a
path. `Test.holds` decides it for a document and the relevance that a text search gave it.
-/

namespace DocQuery

/-- A comparison with a bound. -/
inductive Comparison where
  | above
  | atLeast
  | below
  | atMost
deriving DecidableEq

/-- Whether a value that compares in this way with the bound passes. -/
def Comparison.admits : Comparison → Ordering → Bool
  | .above, o => o == .gt
  | .atLeast, o => o != .lt
  | .below, o => o == .lt
  | .atMost, o => o != .gt

/-- What a match stage asks of a document. -/
inductive Test where
  | all (tests : List Test)
  | any (tests : List Test)
  | equal (path : String) (value : Value)
  | unequal (path : String) (value : Value)
  | compare (path : String) (comparison : Comparison) (bound : Value)
  | oneOf (path : String) (values : List Value)
  | noneOf (path : String) (values : List Value)
  /-- some text at the path contains what the pattern describes -/
  | finds (path : String) (pattern : Pattern)
  | present (path : String) (expected : Bool)
  /-- the document fits a text search -/
  | text (search : String)

namespace Test

/-! ### Reading -/

def fault {α : Type} (f : PipelineFault) : Except StoreError α := .error (.invalidPipeline f)

/-- A conjunction; one test alone is that test. -/
def conjunction : List Test → Test
  | [only] => only
  | tests => .all tests

/-- The flags that a text of options sets. -/
def flagsOf (options : String) : Pattern.Flags :=
  let chars := options.toList
  { Pattern.Flags.off with
    caseless := chars.contains 'i', multiline := chars.contains 'm', dotAll := chars.contains 's' }

def readPattern (path pattern options : String) : Except StoreError Test :=
  match Pattern.read (flagsOf options) pattern with
  | some p => .ok (.finds path p)
  | none => fault .badPattern

def items (operator : String) : Value → Except StoreError (List Value)
  | .array values => .ok values
  | _ => fault (.operandNotArray operator)

/-- The test of one operator on a path; the options of a pattern are no test of their own. -/
def readOperator (path : String) (ops : Document) (operator : String) (operand : Value) :
    Except StoreError (Option Test) :=
  match operator with
  | "$eq" => .ok (some (.equal path operand))
  | "$ne" => .ok (some (.unequal path operand))
  | "$gt" => .ok (some (.compare path .above operand))
  | "$gte" => .ok (some (.compare path .atLeast operand))
  | "$lt" => .ok (some (.compare path .below operand))
  | "$lte" => .ok (some (.compare path .atMost operand))
  | "$in" => (items operator operand).map fun values => some (.oneOf path values)
  | "$nin" => (items operator operand).map fun values => some (.noneOf path values)
  | "$exists" => .ok (some (.present path operand.truthy))
  | "$regex" =>
    let options := (ops.string? "$options").getD ""
    match operand with
    | .string pattern => (readPattern path pattern options).map some
    | .regex pattern _ => (readPattern path pattern options).map some
    | _ => fault .patternNotText
  | "$options" =>
    if ops.contains "$regex" then .ok none else fault (.unknownFieldOperator operator)
  | _ => fault (.unknownFieldOperator operator)

/-- The tests of a document of operators, one after the other. -/
def readOperators (path : String) (ops : Document) :
    List (String × Value) → Except StoreError (List Test)
  | [] => .ok []
  | (operator, operand) :: rest => do
    let first ← readOperator path ops operator operand
    let others ← readOperators path ops rest
    .ok (first.toList ++ others)

/-- A key that names an operator, not a field. -/
def isOperatorKey (key : String) : Bool := key.toList.head? == some '$'

/-- The test under a path: a document whose first key is an operator holds operators, a pattern is
looked for, and everything else is a value to be equal to. -/
def readCondition (path : String) : Value → Except StoreError Test
  | .document (field :: rest) =>
    if isOperatorKey field.1 then
      (readOperators path (field :: rest) (field :: rest)).map conjunction
    else .ok (.equal path (.document (field :: rest)))
  | .regex pattern options => readPattern path pattern options
  | value => .ok (.equal path value)

/-- The text that a search asks for. -/
def searchText : Value → Except StoreError String
  | .document body =>
    match Document.string? body "$search" with
    | some search => .ok search
    | none => fault .textWithoutSearch
  | _ => fault .textWithoutSearch

/-- The test of a field that is no conjunction and no disjunction. -/
def readOther (key : String) (value : Value) : Except StoreError Test :=
  if key = "$text" then (searchText value).map .text
  else if isOperatorKey key then fault (.unknownOperator key)
  else readCondition key value

mutual

/-- The tests that the fields of a document write, one after the other. -/
def readFields : List (String × Value) → Except StoreError (List Test)
  | [] => .ok []
  | (key, value) :: rest => do
    let first ← readField key value
    let others ← readFields rest
    .ok (first :: others)

/-- The test that one field writes. -/
def readField (key : String) (value : Value) : Except StoreError Test :=
  match value with
  | .array values =>
    if key = "$and" then
      if values.isEmpty then fault (.emptyOperand key) else (readItems key values).map .all
    else if key = "$or" then
      if values.isEmpty then fault (.emptyOperand key) else (readItems key values).map .any
    else readOther key (.array values)
  | value =>
    if key = "$and" || key = "$or" then fault (.operandNotArray key) else readOther key value

/-- The tests that the documents of an array write. -/
def readItems (operator : String) : List Value → Except StoreError (List Test)
  | [] => .ok []
  | .document fields :: rest => do
    let first ← readFields fields
    let others ← readItems operator rest
    .ok (conjunction first :: others)
  | _ :: _ => fault (.operandNotDocuments operator)

end

/-- The test that the body of a match stage writes; an empty body admits everything. -/
def read (body : Document) : Except StoreError Test := (readFields body).map conjunction

/-! ### Deciding -/

mutual

/-- The text that a test searches for; the first one if there are several. -/
def search? : Test → Option String
  | .text search => some search
  | .all tests => searchAmong tests
  | .any tests => searchAmong tests
  | _ => none

def searchAmong : List Test → Option String
  | [] => none
  | test :: rest => test.search?.or (searchAmong rest)

end

/-- The values at a path that is written as text. -/
def valuesAt (doc : Document) (path : String) : List Value := Path.candidates doc (Path.ofText path)

/-- Whether some value at a path equals a given one; null is also equal to nothing at all. -/
def equalsAny (doc : Document) (path : String) (expected : Value) : Bool :=
  let found := valuesAt doc path
  match expected, found with
  | .null, [] => true
  | _, _ => found.any fun value => value.equals expected

/-- Whether a pattern is found in a value; only texts are looked into. -/
def patternHolds (pattern : Pattern) : Value → Bool
  | .string s => pattern.found s
  | _ => false

mutual

/-- Whether a document with this relevance passes. -/
def holds (doc : Document) (relevance : Nat) : Test → Bool
  | .all tests => holdsAll doc relevance tests
  | .any tests => holdsAny doc relevance tests
  | .equal path value => equalsAny doc path value
  | .unequal path value => !equalsAny doc path value
  | .compare path comparison bound =>
    (valuesAt doc path).any fun value =>
      value.comparable bound && comparison.admits (value.compare bound)
  | .oneOf path values => values.any (equalsAny doc path)
  | .noneOf path values => !values.any (equalsAny doc path)
  | .finds path pattern => (valuesAt doc path).any (patternHolds pattern)
  | .present path expected => !(valuesAt doc path).isEmpty == expected
  | .text _ => 0 < relevance

def holdsAll (doc : Document) (relevance : Nat) : List Test → Bool
  | [] => true
  | test :: rest => test.holds doc relevance && holdsAll doc relevance rest

def holdsAny (doc : Document) (relevance : Nat) : List Test → Bool
  | [] => false
  | test :: rest => test.holds doc relevance || holdsAny doc relevance rest

end

end Test

end DocQuery
