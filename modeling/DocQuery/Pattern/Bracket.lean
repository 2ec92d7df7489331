import DocQuery.Pattern.Escape

/-!
# Sets in brackets

A set in brackets holds characters, ranges of them, named sets and further sets in brackets, and it
may combine what it holds with set operations. `Bracket` is such a set with its depth: each pair of
brackets, each list of several members and each operation is one level.
-/

namespace DocQuery.Pattern

/-- A set of characters, and how deep its notation nests. -/
structure Bracket where
  chars : CharSet
  depth : Nat

/-- What was read of a list of members. -/
structure Members where
  chars : CharSet
  count : Nat
  depth : Nat

namespace Members

def empty : Members := ⟨[], 0, 0⟩

/-- The members with one more. -/
def add (members : Members) (new : Bracket) : Members :=
  ⟨members.chars.union new.chars, members.count + 1, max members.depth new.depth⟩

/-- The set of all members; a list of several is a level of its own. -/
def bracket (members : Members) : Bracket :=
  ⟨members.chars, if members.count < 2 then members.depth else members.depth + 1⟩

end Members

/-- The sets with an ASCII name. -/
def asciiClass? (name : List Char) : Option CharSet :=
  let digit : CharSet := .range 48 57
  let upper : CharSet := .range 65 90
  let lower : CharSet := .range 97 122
  match String.ofList name with
  | "alnum" => some (CharSet.unions [digit, upper, lower])
  | "alpha" => some (.union upper lower)
  | "ascii" => some (.range 0 127)
  | "blank" => some (.union (.single '\t') (.single ' '))
  | "cntrl" => some (.union (.range 0 31) (.range 127 127))
  | "digit" => some digit
  | "graph" => some (.range 33 126)
  | "lower" => some lower
  | "print" => some (.range 32 126)
  | "punct" =>
    some (CharSet.unions [.range 33 47, .range 58 64, .range 91 96, .range 123 126])
  | "space" => some (.union (.range 9 13) (.single ' '))
  | "upper" => some upper
  | "word" => some (CharSet.unions [digit, upper, lower, .single '_'])
  | "xdigit" => some (CharSet.unions [digit, .range 65 70, .range 97 102])
  | _ => none

/-- The name of a set in ASCII, whether the set is negated, and what follows: `cs` is what follows
an opening bracket. -/
def readAsciiName (cs : List Char) : Option (CharSet × Bool × List Char) :=
  match cs with
  | ':' :: rest =>
    let (negated, rest) := match rest with
      | '^' :: rest => (true, rest)
      | _ => (false, rest)
    match rest.dropWhile (· != ':') with
    | ':' :: ']' :: tail =>
      (asciiClass? (rest.takeWhile (· != ':'))).map fun chars => (chars, negated, tail)
    | _ => none
  | _ => none

/-- One member of a set that is not a set in brackets itself. -/
def readMember (flags : Flags) : List Char → Option (Atom × List Char)
  | [] => none
  | '\\' :: rest => readEscape flags rest
  | c :: rest => some (.literal c, rest)

/-- A character that may stand in a set. -/
def memberChar? (flags : Flags) : Atom → Option Char
  | .literal c => if flags.ascii && 128 ≤ c.toNat then none else some c
  | _ => none

/-- The set of a single member. -/
def memberSet? (flags : Flags) : Atom → Option Bracket
  | .literal c => (memberChar? flags (.literal c)).map fun c => ⟨.single c, 0⟩
  | .chars chars => some ⟨chars, 0⟩
  | .look _ => none

/-- The character that decides whether a hyphen makes a range. The mark of a comment does not
count, but what stands in the comment does. -/
def behindHyphen (flags : Flags) (cs : List Char) : Option Char :=
  if flags.verbose then
    match cs.dropWhile Text.isBlank with
    | '#' :: rest => (rest.dropWhile Text.isBlank).head?
    | rest => rest.head?
  else cs.head?

/-- A member, or a range of two of them. A hyphen in front of the closing bracket or of another
hyphen is no range. -/
def readRange (flags : Flags) (cs : List Char) : Option (Bracket × List Char) := do
  let (first, rest) ← readMember flags cs
  let rest := flags.skip rest
  let alone := (memberSet? flags first).map fun member => (member, rest)
  match rest with
  | [] => none
  | '-' :: tail =>
    let next := behindHyphen flags tail
    if next = some ']' || next = some '-' then alone
    else
      let (last, rest) ← readMember flags (flags.skip tail)
      let a ← memberChar? flags first
      let b ← memberChar? flags last
      if a.toNat ≤ b.toNat then some (⟨.range a.toNat b.toNat, 0⟩, rest) else none
  | _ => alone

/-- How two sets in brackets are combined. -/
inductive SetOperation where
  | inter
  | difference
  | symmetricDifference

def SetOperation.apply : SetOperation → CharSet → CharSet → CharSet
  | .inter => .inter
  | .difference => .difference
  | .symmetricDifference => .symmetricDifference

/-- The set of the members that were read, combined with what stands in front of them. -/
def combine (flags : Flags) (left : Option (SetOperation × Bracket)) (members : Members) :
    Bracket :=
  let right := members.bracket
  match left with
  | none => right
  | some (operation, left) =>
    ⟨operation.apply (flags.fold left.chars) (flags.fold right.chars),
      max left.depth right.depth + 1⟩

/-- The hyphens that a set begins with; each is a member. -/
def readHyphens (flags : Flags) : Nat → Members → List Char → Members × List Char
  | 0, members, cs => (members, cs)
  | fuel + 1, members, cs =>
    match cs with
    | '-' :: rest => readHyphens flags fuel (members.add ⟨.single '-', 0⟩) (flags.skip rest)
    | _ => (members, cs)

/-- The first members of a set: hyphens, or else a closing bracket. -/
def readFirstMembers (flags : Flags) (cs : List Char) : Members × List Char :=
  let (members, rest) := readHyphens flags cs.length .empty cs
  match members.count, rest with
  | 0, ']' :: rest => (members.add ⟨.single ']', 0⟩, flags.skip rest)
  | _, rest => (members, rest)

mutual

/-- A set in brackets, behind its opening one. -/
def readSet (flags : Flags) : Nat → List Char → Option (Bracket × List Char)
  | 0, _ => none
  | fuel + 1, cs =>
    let (negated, cs) := match flags.skip cs with
      | '^' :: rest => (true, flags.skip rest)
      | cs => (false, cs)
    let (members, cs) := readFirstMembers flags cs
    match readMembers flags fuel none members cs with
    | none => none
    | some (inner, rest) =>
      (flags.close? negated inner.chars).map fun chars => (⟨chars, inner.depth + 1⟩, rest)

/-- The members up to the closing bracket. -/
def readMembers (flags : Flags) : Nat → Option (SetOperation × Bracket) → Members →
    List Char → Option (Bracket × List Char)
  | 0, _, _, _ => none
  | fuel + 1, left, members, cs =>
    match flags.skip cs with
    | [] => none
    | ']' :: rest => some (combine flags left members, rest)
    | '[' :: rest =>
      match readAsciiName rest with
      | some (chars, negated, rest) =>
        match flags.close? negated chars with
        | some chars => readMembers flags fuel left (members.add ⟨chars, 0⟩) rest
        | none => none
      | none =>
        match readSet flags fuel rest with
        | some (inner, rest) => readMembers flags fuel left (members.add inner) rest
        | none => none
    | '&' :: '&' :: rest =>
      readMembers flags fuel (some (.inter, combine flags left members)) .empty rest
    | '-' :: '-' :: rest =>
      readMembers flags fuel (some (.difference, combine flags left members)) .empty rest
    | '~' :: '~' :: rest =>
      readMembers flags fuel (some (.symmetricDifference, combine flags left members)) .empty rest
    | cs =>
      match readRange flags cs with
      | some (member, rest) => readMembers flags fuel left (members.add member) rest
      | none => none

end

end DocQuery.Pattern
