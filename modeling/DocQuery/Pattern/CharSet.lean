import DocQuery.Text.Folding

/-!
# Sets of characters in a pattern

A set of characters is a set of code points. `CharSet.folded` adds to a set every character that
differs from a member only by case.
-/

namespace DocQuery

/-- A set of characters. -/
abbrev CharSet := Text.Ranges

namespace CharSet

open Text

/-- The characters from the first to the last one. -/
def range (first last : Nat) : CharSet := [first, last + 1]

def single (c : Char) : CharSet := range c.toNat c.toNat

def all : CharSet := range 0 0x10FFFF

def union : CharSet → CharSet → CharSet := Ranges.combine (· || ·)

def inter : CharSet → CharSet → CharSet := Ranges.combine (· && ·)

def difference : CharSet → CharSet → CharSet := Ranges.combine fun a b => a && !b

def symmetricDifference : CharSet → CharSet → CharSet := Ranges.combine (· ^^ ·)

def complement : CharSet → CharSet := difference all

def unions (sets : List CharSet) : CharSet := sets.foldr union []

/-- Only characters of ASCII. -/
def isAscii (set : CharSet) : Bool := List.all set (· ≤ 128)

/-- The character of a set with one member. -/
def single? : CharSet → Option Char
  | [start, stop] => if stop = start + 1 then some (Char.ofNat start) else none
  | _ => none

/-- The characters that differ from `c` by case at most. -/
def variants (c : Char) : CharSet :=
  unions ((caseVariants c.toNat).map fun d => range d d)

/-- The members of a set and all characters that differ from one only by case. -/
def folded (set : CharSet) : CharSet :=
  union set (Ranges.ofAscending (variantRanges.points.filter fun c =>
    (caseVariants c).any fun d => Ranges.contains set d))

/-- The members of a set and all characters of ASCII that differ from one only by case. -/
def foldedAscii (set : CharSet) : CharSet :=
  let swapped (c : Nat) : Nat := if c < 97 then c + 32 else c - 32
  union set (Ranges.ofAscending ((Ranges.points [65, 91, 97, 123]).filter fun c =>
    Ranges.contains set (swapped c)))

end CharSet

end DocQuery
