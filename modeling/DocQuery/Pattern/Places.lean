import DocQuery.Number.Power
import DocQuery.Pattern.Basic

/-!
# Finding patterns

A text of `n` characters has `n + 1` places: in front of each character, and at its end. A pattern
leads from a place to those where a stretch that begins there may end. `Moves.reach` follows a
pattern from all places of a set at once, so a pattern is found in a text if something is reached
from the set of all places; which of several stretches is meant plays no part.
-/

namespace DocQuery

/-- A set of places, each of them a bit of a number. -/
abbrev Places := Nat

namespace Places

/-- The places whose entry in a list is true. -/
def ofList (here : List Bool) : Places :=
  here.foldr (fun b places => 2 * places + b.toNat) 0

/-- All places of a text of `n` characters. -/
def all (n : Nat) : Places := twoTo (n + 1) - 1

/-- The first places that are not among the second ones. -/
def without (a b : Places) : Places := a ^^^ (a &&& b)

/-- The places after a number of steps. Once a step changes nothing, no further one does. -/
def stepTimes (step : Places → Places) : Nat → Places → Places
  | 0, places => places
  | n + 1, places =>
    let next := step places
    if next = places then places else stepTimes step n next

/-- The places after at most a number of steps: `seen` those so far, `front` the ones that were
reached last. A step leads from each place on its own, so only these can reach new ones. -/
def stepUpTo (step : Places → Places) : Nat → Places → Places → Places
  | 0, seen, _ => seen
  | n + 1, seen, front =>
    let new := without (step front) seen
    if new = 0 then seen else stepUpTo step n (seen ||| new) new

end Places

/-- What a pattern allows in a given text. -/
inductive Moves where
  /-- to stay at one of these places -/
  | stay (here : Places)
  /-- to go over the character behind one of these places -/
  | step (passed : Places)
  | both (first second : Moves)
  | either (first second : Moves)
  /-- exactly `times` times, and then at most `further` times -/
  | repeated (body : Moves) (times further : Nat)

namespace Moves

/-- The places reached from those of a set. -/
def reach : Moves → Places → Places
  | .stay here, places => places &&& here
  | .step passed, places => (places &&& passed) <<< 1
  | .both first second, places => second.reach (first.reach places)
  | .either first second, places => first.reach places ||| second.reach places
  | .repeated body times further, places =>
    let start := Places.stepTimes body.reach times places
    Places.stepUpTo body.reach further start start

end Moves

namespace Pattern

/-- The places of a text where a condition holds. -/
def placesOf (text : List Char) (condition : Look) : Places :=
  Places.ofList (List.zipWith (fun before behind => condition.holds before behind)
    (none :: text.map some) (text.map some ++ [none]))

/-- The places of a text behind which a character of some kind stands. -/
def placesBefore (text : List Char) (p : Char → Bool) : Places := Places.ofList (text.map p)

/-- To go over the characters of a text one after the other. -/
def literalMoves (text : List Char) : List Char → Moves
  | [] => .stay (Places.all text.length)
  | [c] => .step (placesBefore text (· == c))
  | c :: rest => .both (.step (placesBefore text (· == c))) (literalMoves text rest)

mutual

/-- What a pattern allows in a text. Without an upper bound one more repetition than there are
characters reaches nothing new. -/
def moves (text : List Char) : Pattern → Moves
  | .empty => .stay (Places.all text.length)
  | .literal chars => literalMoves text chars
  | .set chars => .step (placesBefore text fun c => Text.Ranges.contains chars c.toNat)
  | .look condition => .stay (placesOf text condition)
  | .group body => moves text body
  | .repeated body least most =>
    .repeated (moves text body) least <|
      match most with
      | some most => min (most - least) (text.length + 1)
      | none => text.length + 1
  | .sequence parts => sequenceMoves text parts
  | .choice options => choiceMoves text options

def sequenceMoves (text : List Char) : List Pattern → Moves
  | [] => .stay (Places.all text.length)
  | part :: rest => .both (moves text part) (sequenceMoves text rest)

def choiceMoves (text : List Char) : List Pattern → Moves
  | [] => .stay 0
  | option :: rest => .either (moves text option) (choiceMoves text rest)

end

/-- Whether some stretch of a text matches. -/
def found (pattern : Pattern) (s : String) : Bool :=
  let text := s.toList
  (pattern.moves text).reach (Places.all text.length) != 0

end Pattern

end DocQuery
