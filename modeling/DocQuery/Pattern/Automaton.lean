import DocQuery.Pattern.Automaton.Sets
import DocQuery.Pattern.Automaton.Words

/-!
# Automata of patterns

`Pattern.extend` says by how much an automaton grows by a pattern, for texts that are read forward
and for those that are read backward. A pattern is refused if one of its two automata takes more
memory than there is: `Pattern.fits`.
-/

namespace DocQuery.Pattern

/-! ### Lengths -/

mutual

/-- The number of characters that a pattern takes at least, if it can match at all. -/
def minLength? : Pattern → Option Nat
  | .empty => some 0
  | .literal text => some text.length
  | .set chars => if chars.isEmpty then none else some 1
  | .look _ => some 0
  | .group body => body.minLength?
  | .repeated body least _ => body.minLength?.map (least * ·)
  | .sequence parts => sumLength? parts
  | .choice options => leastLength? options

/-- The sum of the lengths. -/
def sumLength? : List Pattern → Option Nat
  | [] => some 0
  | part :: rest => do
    let first ← part.minLength?
    let others ← sumLength? rest
    some (first + others)

/-- The least of the lengths, if all patterns have one. -/
def leastLength? : List Pattern → Option Nat
  | [] => none
  | [option] => option.minLength?
  | option :: rest => do
    let first ← option.minLength?
    let others ← leastLength? rest
    some (min first others)

end

/-! ### Ends of the text -/

mutual

/-- Whether a pattern begins with a condition wherever it matches. -/
def beginsWith (condition : Look) : Pattern → Bool
  | .look other => other = condition
  | .group body => body.beginsWith condition
  | .repeated body least _ => 0 < least && body.beginsWith condition
  | .sequence parts => sequenceBeginsWith condition parts
  | .choice options => allBeginWith condition options
  | _ => false

def sequenceBeginsWith (condition : Look) : List Pattern → Bool
  | [] => false
  | part :: rest =>
    part.beginsWith condition || (part.takesNothing && sequenceBeginsWith condition rest)

def allBeginWith (condition : Look) : List Pattern → Bool
  | [] => true
  | option :: rest => option.beginsWith condition && allBeginWith condition rest

end

mutual

/-- Whether a pattern ends with a condition wherever it matches. -/
def endsWith (condition : Look) : Pattern → Bool
  | .look other => other = condition
  | .group body => body.endsWith condition
  | .repeated body least _ => 0 < least && body.endsWith condition
  | .sequence parts => sequenceEndsWith condition parts
  | .choice options => allEndWith condition options
  | _ => false

def sequenceEndsWith (condition : Look) : List Pattern → Bool
  | [] => false
  | part :: rest =>
    sequenceEndsWith condition rest || (allTakeNothing rest && part.endsWith condition)

def allEndWith (condition : Look) : List Pattern → Bool
  | [] => true
  | option :: rest => option.endsWith condition && allEndWith condition rest

end

/-! ### Parts -/

/-- An automaton that was built up to the last state of a part. -/
structure Built where
  extent : Extent
  /-- the last state is one with several ways out -/
  endsInBranch : Bool

/-- The extent with a way from the last state to another one. -/
def Built.joined (built : Built) : Extent :=
  if built.endsInBranch then built.extent.branch 1 else built.extent

/-- A part that was built, unless the automaton is too large. -/
def closed (extent : Extent) : Option Built := if extent.fits then some ⟨extent, false⟩ else none

/-- A part as often as `times` says, behind what was built. -/
def follow (part : Extent → Option Built) : Nat → Built → Option Built
  | 0, built => some built
  | times + 1, built =>
    match part built.joined with
    | some next => follow part times next
    | none => none

/-- A part as often as `times` says. -/
def exactly (part : Extent → Option Built) (times : Nat) (extent : Extent) : Option Built :=
  match times with
  | 0 => closed (extent.push 1)
  | times + 1 => (part extent).bind (follow part times)

/-- A part that may be left out, `times` times; it is left out by a way to a common state. -/
def followOptional (part : Extent → Option Built) : Nat → Built → Option Built
  | 0, built => some built
  | times + 1, built =>
    match part (built.joined.push 1) with
    | some next => followOptional part times { next with extent := next.extent.branch 2 }
    | none => none

/-- A repetition. `takesSome` says that its part takes a character at least. -/
def repetition (part : Extent → Option Built) (takesSome : Bool) (least : Nat)
    (most : Option Nat) (extent : Extent) : Option Built :=
  match least, most with
  | 0, some 1 => (part (extent.push 1)).bind fun built => closed ((built.joined.push 1).branch 2)
  | 0, none =>
    if takesSome then
      (part (extent.push 1)).map fun built => ⟨built.joined.branch 1, true⟩
    else (part extent).bind fun built => closed ((built.joined.push 3).branch 4)
  | least, none =>
    (exactly part least extent).map fun built => ⟨(built.joined.push 1).branch 1, true⟩
  | least, some most =>
    if least = most then exactly part least extent
    else do
      let required ← exactly part least extent
      let built ← followOptional part (most - least)
        { required with extent := required.extent.push 1 }
      closed built.joined

/-- The bytes of a literal. -/
def word? : Pattern → Option Word
  | .literal text => some (text.flatMap String.utf8EncodeChar)
  | _ => none

/-! ### Patterns -/

mutual

/-- The automaton with a pattern, which is read forward or backward. -/
def extend (forward : Bool) : Pattern → Extent → Option Built
  | .empty, extent => closed (extent.push 1)
  | .literal text, extent => closed (extent.push (text.map Char.utf8Size).sum)
  | .set chars, extent => closed (chars.extend forward extent)
  | .look _, extent => closed (extent.push 1)
  | .group body, extent =>
    if forward then
      (extend forward body (extent.push 1)).bind fun built => closed (built.joined.push 1)
    else extend forward body extent
  | .repeated body least most, extent =>
    let takesSome := body.minLength?.any (0 < ·)
    repetition (extend forward body) takesSome least most extent
  | .sequence parts, extent => extendSequence forward parts extent
  | .choice options, extent =>
    match options.mapM word? with
    | some words =>
      let words := if forward then words else words.map List.reverse
      let length := (words.map List.length).foldl max 0
      closed (Words.extend (length + 1) words (extent.push 1))
    | none => (extendChoice forward 2 options extent).bind closed

def extendSequence (forward : Bool) : List Pattern → Extent → Option Built
  | [], extent => closed (extent.push 1)
  | [part], extent => extend forward part extent
  | part :: rest, extent =>
    if forward then
      (extend forward part extent).bind fun built => extendSequence forward rest built.joined
    else
      (extendSequence forward rest extent).bind fun built => extend forward part built.joined

/-- The options, each with a way to it and from it. The states where they part and where they meet
are built as soon as there are `count` of them. -/
def extendChoice (forward : Bool) (count : Nat) : List Pattern → Extent → Option Extent
  | [], extent => some extent
  | option :: rest, extent =>
    (extend forward option extent).bind fun built =>
      let extent := built.joined.branch 1
      extendChoice forward (count - 1) rest (if count = 1 then extent.push 2 else extent)

end

/-- The extent of what goes over the text in front of a match; nothing does if every match begins
where the reading begins. -/
def leadExtent (forward : Bool) (pattern : Pattern) : Extent :=
  let isAnchored :=
    if forward then pattern.beginsWith .textStart else pattern.endsWith .textEnd
  if isAnchored then Extent.zero.push 1 else ((Extent.zero.push 2).pushSpans 1).branch 2

/-- Whether the automaton that reads forward or backward takes no more memory than there is. -/
def fitsReading (forward : Bool) (pattern : Pattern) : Bool :=
  let whole := if forward then Pattern.group pattern else pattern
  match whole.extend forward (leadExtent forward pattern) with
  | some built => (built.joined.push 1).fits
  | none => false

/-- Whether the automata of a pattern take no more memory than there is. -/
def fits (pattern : Pattern) : Bool := pattern.fitsReading true && pattern.fitsReading false

end DocQuery.Pattern
