import DocQuery.CommandLine.Run

/-!
# The program

Answers one request to the collections of a data file and prints the answer as JSON.
-/

namespace DocQuery.CommandLine

/-- The text of a file, if it can be read. -/
def openFile (path : String) : IO (Option String) := do
  try
    return some (← IO.FS.readFile path)
  catch _ =>
    return none

/-- An id that nothing else has. -/
def freshId : IO ObjectId := do
  let bytes ← IO.getRandomBytes 12
  return ⟨bytes.foldl (fun word byte => word <<< 8 ||| byte.toBitVec.setWidth 96) 0⟩

end DocQuery.CommandLine

open DocQuery CommandLine

/-- Answers the call that the arguments make. -/
def main (arguments : List String) : IO UInt32 := do
  let answer ← ExceptT.run do
    let call ← ExceptT.mk (pure (Invocation.ofArguments arguments))
    call.run (m := IO) openFile (← freshId)
  match answer with
  | .ok json =>
    IO.println json.pretty
    return 0
  | .error fault =>
    IO.eprintln fault.message
    return 1
