import DocQuery.Selection.Basic
import DocQuery.Text.Alphanumeric
import DocQuery.Text.Blank
import DocQuery.Text.Quoted

/-!
# Reading selections

A selection is written as a row of keys with blanks or commas between them; a key may be followed
by a group in braces. Keys are made of letters, numbers, underscores and points. The text is first
cut into tokens; the tokens then build the tree, with a stack of the groups that are open.
-/

namespace DocQuery.Selection

/-- Why a text is no selection. -/
inductive Fault where
  | emptySegment (key : String)
  | unexpectedCharacter (c : Char) (offset : Nat)
  | unclosedGroup
  | emptyGroup
  | unbalancedClose
  | groupWithoutKey
deriving DecidableEq

def Fault.message : Fault → String
  | .emptySegment key => "empty path segment in " ++ Text.quoted key
  | .unexpectedCharacter c offset =>
    "unexpected character " ++ Text.quotedChar c ++ " at offset " ++ toString offset
  | .unclosedGroup => "unclosed '\x7b'"
  | .emptyGroup => "empty '\x7b \x7d' group"
  | .unbalancedClose => "unbalanced '\x7d'"
  | .groupWithoutKey => "'\x7b' must follow a field name"

inductive Token where
  | key (name : String)
  | openGroup
  | closeGroup
deriving DecidableEq

/-- A character of a key. -/
def isKeyChar (c : Char) : Bool := Text.isAlphanumeric c || c = '_' || c = '.'

/-- A character that only separates. -/
def isSeparator (c : Char) : Bool := Text.isBlank c || c = ','

/-- The token of a finished key, whose characters are given last one first. -/
def finishKey (run : List Char) : Except Fault (List Token) :=
  match run with
  | [] => .ok []
  | _ =>
    let name := String.ofList run.reverse
    if (Path.ofText name).contains "" then .error (.emptySegment name) else .ok [.key name]

/-- The tokens of a text. `run` holds the characters of the key that is being read, last one first,
and `offset` is the number of bytes in front of the rest. -/
def tokensFrom (offset : Nat) (run : List Char) : List Char → Except Fault (List Token)
  | [] => finishKey run
  | c :: rest =>
    let next := offset + c.utf8Size
    if isKeyChar c then tokensFrom next (c :: run) rest
    else do
      let done ← finishKey run
      let own ←
        if c = '\x7b' then .ok [.openGroup]
        else if c = '\x7d' then .ok [.closeGroup]
        else if isSeparator c then .ok []
        else .error (.unexpectedCharacter c offset)
      let more ← tokensFrom next [] rest
      .ok (done ++ own ++ more)

def tokens (s : String) : Except Fault (List Token) := tokensFrom 0 [] s.toList

/-- The tree that tokens write. `stack` holds the groups that are open, each with the key that is
being filled, the innermost one first; `tree` is the one that is being read. -/
def build (marker : Int32) (stack : List (Selection × String)) (tree : Selection) :
    List Token → Except Fault Selection
  | [] => if stack.isEmpty then .ok tree else .error .unclosedGroup
  | .closeGroup :: rest =>
    match stack with
    | [] => .error .unbalancedClose
    | (outer, key) :: stack =>
      if tree.isEmpty then .error .emptyGroup
      else build marker stack (mergeEntry outer key (.group tree)) rest
  | .openGroup :: _ => .error .groupWithoutKey
  | .key name :: .openGroup :: rest => build marker ((tree, name) :: stack) [] rest
  | .key name :: rest => build marker stack (mergeEntry tree name (.marker marker)) rest

/-- The selection that a text writes, with the given marker at every key without a group. -/
def read (marker : Int32) (s : String) : Except Fault Selection := do
  build marker [] [] (← tokens s)

end DocQuery.Selection
