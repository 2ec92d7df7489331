import DocQuery.Answer.Basic

/-!
# Faults of the command line

Everything that can go wrong between the arguments and the answer, with its wording.
-/

namespace DocQuery.CommandLine

/-- How the program is called. -/
def usage : String :=
  "usage: sift <catalog.json> <data.json> <collection> [key=value]... " ++
    "[--count | --page | --pipeline] [--pre '<json stage array>']"

/-- What is wrong with the arguments. -/
inductive UsageFault where
  /-- a file or the collection is missing -/
  | incomplete
  | unknownFlag (flag : String)
  | noPair (argument : String)
  | noStages
  | stagesNotArray
  | stageNotObject (value : Value)
  /-- the stages are JSON, but stand for no values -/
  | stagesUnreadable

def UsageFault.message : UsageFault → String
  | .incomplete => usage
  | .unknownFlag flag => "unknown flag " ++ flag ++ "\n" ++ usage
  | .noPair argument => "expected key=value, got " ++ Text.quoted argument
  | .noStages => "--pre needs a JSON array"
  | .stagesNotArray => "--pre must be a JSON array"
  | .stageNotObject value => "pipeline stage must be an object, got " ++ value.display
  | .stagesUnreadable => "--pre: malformed value"

/-- What is wrong with the documents of a data file. -/
inductive DataFault where
  | notObject
  | notArray (name : String)
  | notDocument (name : String) (value : Value)
  /-- a document is JSON, but stands for no value -/
  | unreadable (name : String)

def DataFault.message : DataFault → String
  | .notObject => "data file must be an object of collections"
  | .notArray name => "collection " ++ Text.quoted name ++ " must be an array"
  | .notDocument name value =>
    "collection " ++ Text.quoted name ++ " holds a non-document value " ++ value.display
  | .unreadable name => "collection " ++ Text.quoted name ++ ": malformed value"

/-- Why the program has no answer. -/
inductive Fault where
  /-- a file cannot be read -/
  | unreadable (path : String)
  /-- a file, or the argument of a flag, is no JSON -/
  | malformed (path : String)
  | data (fault : DataFault)
  | usage (fault : UsageFault)
  | request (failure : Failure)

def Fault.message : Fault → String
  | .unreadable path => "failed to read " ++ path
  | .malformed path => "failed to parse " ++ path
  | .data fault => "invalid data: " ++ fault.message
  | .usage fault => fault.message
  | .request failure => failure.message

end DocQuery.CommandLine
