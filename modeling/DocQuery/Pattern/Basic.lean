import DocQuery.Pattern.CharSet
import DocQuery.Text.Word

/-!
# Patterns

A pattern describes stretches of a text. The functions that build patterns keep them small: texts
that follow one another become one text, alternatives of single characters become a set, what
alternatives have in common in front is taken out of them, and a repetition of something that takes
no character is not carried out more than once. None of this changes which stretches are meant.
-/

namespace DocQuery

/-- Where a place lies between word characters and others. -/
inductive WordEdge where
  /-- a word character on one side only -/
  | boundary
  | noBoundary
  | start
  | stop
  /-- no word character in front -/
  | startHalf
  /-- no word character behind -/
  | stopHalf
deriving DecidableEq

/-- Whether a place is of a kind, from the word characters in front of it and behind it. -/
def WordEdge.holds (before behind : Bool) : WordEdge → Bool
  | .boundary => before != behind
  | .noBoundary => before == behind
  | .start => !before && behind
  | .stop => before && !behind
  | .startHalf => !before
  | .stopHalf => !behind

/-- A condition on a place between two characters. -/
inductive Look where
  | textStart
  | textEnd
  | lineStart
  | lineEnd
  /-- line ends are a carriage return, a line feed, or both in this order -/
  | crlfLineStart
  | crlfLineEnd
  /-- word characters may be those of ASCII only -/
  | word (edge : WordEdge) (ascii : Bool)
deriving DecidableEq

/-- A word character of ASCII. -/
def isAsciiWordChar (c : Char) : Bool := c.isAlphanum || c = '_'

/-- A word character, if there is a character at all. -/
def isWordAt (ascii : Bool) : Option Char → Bool
  | some c => if ascii then isAsciiWordChar c else Text.isWordChar c
  | none => false

/-- Whether a condition holds between two characters; none stands beyond the ends of a text. -/
def Look.holds (before behind : Option Char) : Look → Bool
  | .textStart => before.isNone
  | .textEnd => behind.isNone
  | .lineStart => before.isNone || before == some '\n'
  | .lineEnd => behind.isNone || behind == some '\n'
  | .crlfLineStart =>
    before.isNone || before == some '\n' || (before == some '\r' && behind != some '\n')
  | .crlfLineEnd =>
    behind.isNone || behind == some '\r' || (behind == some '\n' && before != some '\r')
  | .word edge ascii => edge.holds (isWordAt ascii before) (isWordAt ascii behind)

/-- A pattern of characters. -/
inductive Pattern where
  | empty
  /-- a text of at least one character -/
  | literal (text : List Char)
  /-- one character of a set -/
  | set (chars : CharSet)
  | look (condition : Look)
  /-- a part whose stretch is of interest on its own -/
  | group (body : Pattern)
  /-- at least `least` times, and at most `most` times if there is such a bound -/
  | repeated (body : Pattern) (least : Nat) (most : Option Nat)
  /-- one after the other -/
  | sequence (parts : List Pattern)
  /-- one of them -/
  | choice (options : List Pattern)

instance : Inhabited Pattern := ⟨.empty⟩

namespace Pattern

/-! ### Lengths -/

mutual

/-- Whether a pattern cannot take a character. -/
def takesNothing : Pattern → Bool
  | .empty => true
  | .literal _ => false
  | .set _ => false
  | .look _ => true
  | .group body => body.takesNothing
  | .repeated body _ most => body.takesNothing && most.isSome
  | .sequence parts => allTakeNothing parts
  | .choice options => allTakeNothing options

def allTakeNothing : List Pattern → Bool
  | [] => true
  | part :: rest => part.takesNothing && allTakeNothing rest

end

/-! ### Construction -/

/-- One character of a set. -/
def ofSet (chars : CharSet) : Pattern :=
  match CharSet.single? chars with
  | some c => .literal [c]
  | none => .set chars

/-- A part in front of others, joined to them if both are texts. -/
def prependPart (part : Pattern) (rest : List Pattern) : List Pattern :=
  match part, rest with
  | .empty, rest => rest
  | .literal text, .literal more :: rest => .literal (text ++ more) :: rest
  | part, rest => part :: rest

/-- As `prependPart`; the parts of a sequence are taken one by one. -/
def prepend (part : Pattern) (rest : List Pattern) : List Pattern :=
  match part with
  | .sequence parts => parts.foldr prependPart rest
  | part => prependPart part rest

/-- One after the other. -/
def inSequence (parts : List Pattern) : Pattern :=
  match parts.foldr prepend [] with
  | [] => .empty
  | [part] => part
  | parts => .sequence parts

/-- The character of a text of one character. -/
def char? : Pattern → Option Char
  | .literal [c] => some c
  | _ => none

def set? : Pattern → Option CharSet
  | .set chars => some chars
  | _ => none

/-- The alternatives of a pattern. -/
def options : Pattern → List Pattern
  | .choice options => options
  | pattern => [pattern]

/-- The parts of a pattern that is a sequence. -/
def parts? : Pattern → Option (List Pattern)
  | .sequence parts => some parts
  | _ => none

/-- One of some patterns: a set if all are characters, or all are sets. -/
def choose (patterns : List Pattern) : Pattern :=
  match patterns.flatMap options with
  | [pattern] => pattern
  | options =>
    match options.mapM char? with
    | some chars => ofSet (CharSet.unions (chars.map CharSet.single))
    | none =>
      match options.mapM set? with
      | some sets => ofSet (CharSet.unions sets)
      | none => .choice options

mutual

/-- Whether two patterns are written alike. A part of interest on its own is like no other one. -/
def alike : Pattern → Pattern → Bool
  | .empty, .empty => true
  | .literal text, .literal other => text == other
  | .set chars, .set others => chars == others
  | .look condition, .look other => condition == other
  | .repeated body least most, .repeated other few many =>
    body.alike other && least == few && most == many
  | .sequence parts, .sequence others => allAlike parts others
  | .choice options, .choice others => allAlike options others
  | _, _ => false

def allAlike : List Pattern → List Pattern → Bool
  | [], [] => true
  | first :: rest, other :: others => first.alike other && allAlike rest others
  | _, _ => false

end

/-- How many parts two sequences have in common in front. -/
def commonParts : List Pattern → List Pattern → Nat
  | first :: rest, other :: others => if first.alike other then commonParts rest others + 1 else 0
  | _, _ => 0

/-- One of some patterns. What sequences have in common in front is taken out of the choice. -/
def oneOf (patterns : List Pattern) : Pattern :=
  let options := patterns.flatMap options
  match options.mapM parts? with
  | some (first :: second :: others) =>
    let sequences := second :: others
    let common := sequences.foldl (fun n parts => min n (commonParts first parts)) first.length
    if common = 0 then choose options
    else
      inSequence (first.take common ++
        [choose ((first :: sequences).map fun parts => inSequence (parts.drop common))])
  | _ => choose options

/-- A repetition. -/
def repeatedly (body : Pattern) (least : Nat) (most : Option Nat) : Pattern :=
  let (least, most) :=
    if body.takesNothing then (min least 1, some (min (most.getD 1) 1)) else (least, most)
  match least, most with
  | 0, some 0 => .empty
  | 1, some 1 => body
  | least, most => .repeated body least most

end Pattern

end DocQuery
