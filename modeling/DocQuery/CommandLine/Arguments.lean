import DocQuery.CommandLine.Fault
import DocQuery.Extended.Reader
import DocQuery.Json.Reader

/-!
# Arguments

The first three arguments that are no flags name the catalog, the data and the collection; the
others are pairs of the request. Flags may stand anywhere: the last one that names an output counts,
and so does the last list of stages.
-/

namespace DocQuery.CommandLine

/-- What is asked of the collection. -/
inductive Output where
  | find
  | count
  | page
  | pipeline
deriving DecidableEq

/-- A complete call of the program. -/
structure Invocation where
  catalog : String
  data : String
  collection : String
  request : Request
  output : Output
  /-- stages that run right behind the filter -/
  preStages : List Document

/-- The arguments so far. -/
structure Gathered where
  /-- the arguments that are no flags and no pairs, three at most -/
  positional : List String
  request : Request
  output : Output
  preStages : List Document

def Gathered.start : Gathered := ⟨[], [], .find, []⟩

/-- The documents that the items of an array are. -/
def stagesOf : List Value → Except Fault (List Document)
  | [] => .ok []
  | .document stage :: rest => (stagesOf rest).map fun stages => stage :: stages
  | value :: _ => .error (.usage (.stageNotObject value))

/-- The stages that the argument of a flag writes. -/
def readStages (text : String) : Except Fault (List Document) :=
  match Json.read text with
  | none => .error (.malformed "--pre")
  | some j =>
    match Extended.value? j.distinct with
    | none => .error (.usage .stagesUnreadable)
    | some (.array items) => stagesOf items
    | some _ => .error (.usage .stagesNotArray)

/-- The output that a flag asks for. -/
def outputOf? (argument : String) : Option Output :=
  match argument with
  | "--count" => some .count
  | "--page" => some .page
  | "--pipeline" => some .pipeline
  | _ => none

def isFlag (argument : String) : Bool := argument.toList.take 2 == ['-', '-']

/-- A text cut at its first equals sign. -/
def splitPair? (argument : String) : Option (String × String) :=
  let cs := argument.toList
  if cs.contains '=' then
    some (String.ofList (cs.takeWhile (· != '=')), String.ofList ((cs.dropWhile (· != '=')).drop 1))
  else none

namespace Gathered

/-- One more argument that is no flag. -/
def addPlain (done : Gathered) (argument : String) : Except Fault Gathered :=
  if done.positional.length < 3 then
    .ok { done with positional := done.positional ++ [argument] }
  else
    match splitPair? argument with
    | some (key, value) => .ok { done with request := done.request.insert key value }
    | none => .error (.usage (.noPair argument))

/-- One more argument that takes no other one. -/
def add (done : Gathered) (argument : String) : Except Fault Gathered :=
  match outputOf? argument with
  | some output => .ok { done with output := output }
  | none =>
    if isFlag argument then .error (.usage (.unknownFlag argument)) else done.addPlain argument

/-- All arguments, one after the other; the flag for stages takes the next one. -/
def addAll (done : Gathered) : List String → Except Fault Gathered
  | [] => .ok done
  | argument :: rest =>
    if argument = "--pre" then
      match rest with
      | [] => .error (.usage .noStages)
      | text :: rest => do
        let stages ← readStages text
        addAll { done with preStages := stages } rest
    else do
      let done ← done.add argument
      addAll done rest

/-- The call that the arguments make, if none is missing. -/
def complete (done : Gathered) : Except Fault Invocation :=
  match done.positional with
  | [catalog, data, collection] =>
    .ok ⟨catalog, data, collection, done.request, done.output, done.preStages⟩
  | _ => .error (.usage .incomplete)

end Gathered

/-- The call that arguments make. -/
def Invocation.ofArguments (arguments : List String) : Except Fault Invocation := do
  let done ← Gathered.start.addAll arguments
  done.complete

end DocQuery.CommandLine
