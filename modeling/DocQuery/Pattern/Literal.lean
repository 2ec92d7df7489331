import DocQuery.Pattern.Basic

/-!
# Texts as patterns

`Pattern.escape` writes a text so that the pattern read from it matches the text itself: the
characters that mean something in a pattern get a backslash.
-/

namespace DocQuery.Pattern

/-- The characters that mean something in a pattern. -/
def metaCharacters : List Char :=
  ['\\', '.', '+', '*', '?', '(', ')', '|', '[', ']', '\x7b', '\x7d', '^', '$', '#', '&', '-', '~']

def isMeta (c : Char) : Bool := metaCharacters.contains c

/-- A text with a backslash in front of every character that means something in a pattern. -/
def escape (s : String) : String :=
  String.ofList (s.toList.flatMap fun c => if isMeta c then ['\\', c] else [c])

end DocQuery.Pattern
