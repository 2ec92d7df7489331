import DocQuery.Json.Writer
import DocQuery.Text.Quoted

/-!
# Requests

A request is a flat list of keys with texts, as it comes from a query string. A key that is given
again takes the new text at its old place. `Request.ofJson` makes one from a JSON object, where
numbers and truth values become texts and null is left out.
-/

namespace DocQuery

/-- The texts of a request by key, in the order of the keys' first places. -/
abbrev Request := List (String × String)

namespace Request

def insert (request : Request) (key value : String) : Request := Keyed.put key value request

def get? (request : Request) (key : String) : Option String := request.lookup key

/-- A request from pairs, put one after the other. -/
def ofPairs (pairs : List (String × String)) : Request := Keyed.ofList pairs

/-- Why a JSON value is no request. -/
inductive Fault where
  | notAnObject
  | notAScalar (key : String)
deriving DecidableEq

def Fault.message : Fault → String
  | .notAnObject => "request must be a JSON object"
  | .notAScalar key => "value of " ++ Text.quoted key ++ " must be a scalar"

/-- The request with one more member of an object. -/
def insertJson (request : Request) (key : String) : Json → Except Fault Request
  | .null => .ok request
  | .string s => .ok (request.insert key s)
  | .whole n => .ok (request.insert key (String.ofList (Json.wholeText n)))
  | .real x => .ok (request.insert key (String.ofList (x.text Json.numberLayout)))
  | .bool b => .ok (request.insert key (if b then "true" else "false"))
  | .array _ => .error (.notAScalar key)
  | .object _ => .error (.notAScalar key)

/-- The request that a JSON object with distinct names describes. -/
def ofJson : Json → Except Fault Request
  | .object members =>
    members.foldlM (fun request (key, value) => request.insertJson key value) []
  | _ => .error .notAnObject

end Request

end DocQuery
