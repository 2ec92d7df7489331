/-!
# Sets of code points

A set of code points is written as the ascending list of the points where membership changes:
the first entry opens a range, the second closes it (it is the first point outside), and so on.
`Text.Ranges.contains` reads such a list, and `Text.Ranges.combine` combines two of them point by
point.
-/

namespace DocQuery.Text

/-- The points where membership changes, ascending. -/
abbrev Ranges := List Nat

namespace Ranges

/-- Membership: one range is looked at after the other. -/
def contains : Ranges → Nat → Bool
  | [], _ => false
  | [start], c => start ≤ c
  | start :: stop :: rest, c =>
    if c < start then false else if c < stop then true else contains rest c

/-! ### Combination -/

/-- A point stands in a list if membership changes there. -/
def changing (before after : Bool) (point : Nat) (rest : Ranges) : Ranges :=
  if before == after then rest else point :: rest

/-- The combination where the first set does not change any more. -/
def combineLast (op : Bool → Bool → Bool) (inFirst : Bool) : Ranges → Bool → Ranges
  | [], _ => []
  | y :: second, inSecond =>
    changing (op inFirst inSecond) (op inFirst !inSecond) y
      (combineLast op inFirst second !inSecond)

/-- The combination up to the point `x` of the first set, and `further` behind it. -/
def combineUpTo (op : Bool → Bool → Bool) (x : Nat) (inFirst : Bool)
    (further : Ranges → Bool → Ranges) : Ranges → Bool → Ranges
  | [], inSecond => changing (op inFirst inSecond) (op (!inFirst) inSecond) x (further [] inSecond)
  | y :: second, inSecond =>
    if y < x then
      changing (op inFirst inSecond) (op inFirst !inSecond) y
        (combineUpTo op x inFirst further second !inSecond)
    else if x < y then
      changing (op inFirst inSecond) (op (!inFirst) inSecond) x (further (y :: second) inSecond)
    else
      changing (op inFirst inSecond) (op (!inFirst) !inSecond) x (further second !inSecond)

/-- Both lists swept from below; the Boolean values say on which side of a change the sweep is. -/
def combineFrom (op : Bool → Bool → Bool) : Ranges → Bool → Ranges → Bool → Ranges
  | [], inFirst => combineLast op inFirst
  | x :: first, inFirst => combineUpTo op x inFirst (combineFrom op first !inFirst)

/-- The points where `op` holds of the memberships in both sets; `op` holds nowhere outside of
both. -/
def combine (op : Bool → Bool → Bool) (first second : Ranges) : Ranges :=
  combineFrom op first false second false

/-- The ranges one by one, each with its first and its last point. -/
def spans : Ranges → List (Nat × Nat)
  | start :: stop :: rest => (start, stop - 1) :: spans rest
  | _ => []

/-- All points of the ranges, ascending. -/
def points (ranges : Ranges) : List Nat :=
  (spans ranges).flatMap fun (first, last) => List.range' first (last + 1 - first)

/-- The set of some points, which are given ascending. -/
def ofAscending : List Nat → Ranges
  | [] => []
  | c :: rest =>
    match ofAscending rest with
    | start :: ranges => if start = c + 1 then c :: ranges else c :: (c + 1) :: start :: ranges
    | [] => [c, c + 1]

end Ranges

end DocQuery.Text
