import DocQuery.Text.Ranges

/-!
# Blank characters

The characters with the Unicode property `White_Space`, with the two operations that rest on
them: `trim` takes them off both ends, and `words` cuts a text at every run of them.
-/

namespace DocQuery.Text

/-- The code points that separate words. -/
def blankRanges : Ranges := [
  9, 14, 32, 33, 133, 134, 160, 161, 5760, 5761, 8192, 8203, 8232, 8234, 8239, 8240, 8287, 8288,
  12288, 12289]

/-- A character that separates words. -/
def isBlank (c : Char) : Bool := blankRanges.contains c.toNat

/-- A list without the blanks at its end. -/
def dropBlanksRight (cs : List Char) : List Char := (cs.reverse.dropWhile isBlank).reverse

/-- A text without the blanks at its ends. -/
def trim (s : String) : String :=
  String.ofList (dropBlanksRight (s.toList.dropWhile isBlank))

/-- The maximal runs of characters that do not satisfy `p`, in order; no run is empty. -/
def runsBetween (p : Char → Bool) (cs : List Char) : List (List Char) :=
  (cs.splitOnP p).filter fun run => !run.isEmpty

/-- The words of a text: its maximal runs of characters that are not blank. -/
def words (s : String) : List String := (runsBetween isBlank s.toList).map String.ofList

end DocQuery.Text
