import DocQuery.Number.Numeral
import DocQuery.Pattern.Automaton
import DocQuery.Pattern.Bracket
import DocQuery.Text.Alphanumeric

/-!
# Reading patterns

`Pattern.read` accepts the notation of patterns: literals, `.`, sets in brackets, escapes,
conditions on a place, groups, alternatives and repetitions, and flags that hold from where they
stand to the end of their group. Conditions that look further ahead or behind, and references to
earlier groups, are not part of it. The notation must not nest too deep, and the automaton of the
pattern must not be too large.
-/

namespace DocQuery.Pattern

/-! ### Repetitions -/

/-- Some digits, and what follows them. -/
def readDigits (flags : Flags) : Nat → List Char → List Char × List Char
  | 0, cs => ([], cs)
  | fuel + 1, cs =>
    match cs with
    | [] => ([], [])
    | c :: rest =>
      if c.isDigit then
        let (digits, rest) := readDigits flags fuel (flags.skip rest)
        (c :: digits, rest)
      else ([], cs)

/-- A number with blanks around it; it fits 32 bits. -/
def readBound (flags : Flags) (cs : List Char) : Option (Nat × List Char) :=
  let (digits, rest) := readDigits flags cs.length (cs.dropWhile Text.isBlank)
  if digits.isEmpty || twoTo 32 ≤ Numeral.value digits then none
  else some (Numeral.value digits, rest.dropWhile Text.isBlank)

/-- The bounds of a repetition, behind its opening brace. -/
def readBounds (flags : Flags) (cs : List Char) : Option (Nat × Option Nat × List Char) := do
  let (least, rest) ← readBound flags (flags.skip cs)
  match rest with
  | '\x7d' :: rest => some (least, some least, rest)
  | ',' :: rest =>
    match flags.skip rest with
    | '\x7d' :: rest => some (least, none, rest)
    | rest =>
      let (most, rest) ← readBound flags rest
      match rest with
      | '\x7d' :: rest => if least ≤ most then some (least, some most, rest) else none
      | _ => none
  | _ => none

/-- A question mark behind a repetition asks for the shortest stretch. -/
def skipLazy : List Char → List Char
  | '?' :: rest => rest
  | cs => cs

/-! ### Groups -/

/-- Flags up to `:` or `)`: each at most once, with at most one hyphen that is not the last one.
The flags behind the hyphen are set off. Gives the new flags, whether there is any, and the text
from the closing character on. -/
def readFlags (flags : Flags) (on : Bool) (seen : List Char) :
    List Char → Option (Flags × Bool × List Char)
  | [] => none
  | c :: rest =>
    if c = ':' || c = ')' then
      if seen.head? = some '-' then none else some (flags, !seen.isEmpty, c :: rest)
    else if seen.contains c then none
    else if c = '-' then readFlags flags false (c :: seen) rest
    else
      match flags.with? on c with
      | some flags => readFlags flags on (c :: seen) rest
      | none => none

/-- The name of a group, up to `>`. -/
def readName (cs : List Char) : Option (String × List Char) :=
  let isFirst (c : Char) : Bool := c = '_' || Text.isAlphabetic c
  let isNext (c : Char) : Bool :=
    c = '_' || c = '.' || c = '[' || c = ']' || Text.isAlphanumeric c
  match cs.takeWhile (· != '>'), cs.dropWhile (· != '>') with
  | c :: more, '>' :: rest =>
    if isFirst c && more.all isNext then some (String.ofList (c :: more), rest) else none
  | _, _ => none

/-- How a group begins, behind its parenthesis. -/
inductive GroupStart where
  /-- flags for what follows in the group around it -/
  | directive (flags : Flags)
  /-- a group of interest on its own, and its name if it has one -/
  | group (name : Option String)
  /-- a group for the sake of its flags, or of none -/
  | plain (flags : Flags)

def readGroupStart (flags : Flags) (cs : List Char) : Option (GroupStart × List Char) :=
  match flags.skip cs with
  | '?' :: '=' :: _ => none
  | '?' :: '!' :: _ => none
  | '?' :: '<' :: '=' :: _ => none
  | '?' :: '<' :: '!' :: _ => none
  | '?' :: 'P' :: '<' :: rest => (readName rest).map fun (name, rest) => (.group (some name), rest)
  | '?' :: '<' :: rest => (readName rest).map fun (name, rest) => (.group (some name), rest)
  | '?' :: rest =>
    match readFlags flags true [] rest with
    | some (new, isSome, ')' :: rest) => if isSome then some (.directive new, rest) else none
    | some (new, _, _ :: rest) => some (.plain new, rest)
    | _ => none
  | rest => some (.group none, rest)

/-! ### Items -/

/-- What stands in a group at one place. -/
structure Item where
  pattern : Pattern
  /-- how deep its notation nests -/
  depth : Nat
  /-- flags are an item that cannot be repeated -/
  isFlags : Bool

namespace Item

/-- An item that holds no other one. -/
def simple (pattern : Pattern) : Item := ⟨pattern, 0, false⟩

/-- Flags for what follows. -/
def directive : Item := ⟨.empty, 0, true⟩

/-- The patterns of some items, combined; several items are a level of their own. -/
def combined (combine : List Pattern → Pattern) : List Item → Item
  | [] => simple (combine [])
  | [item] => { item with isFlags := false }
  | items =>
    ⟨combine (items.map Item.pattern), (items.map Item.depth).foldl max 0 + 1, false⟩

/-- One after the other; the last one comes first in the list. -/
def inSequence (items : List Item) : Item := combined Pattern.inSequence items.reverse

/-- One of them; the last one comes first in the list. -/
def oneOf (items : List Item) : Item := combined Pattern.oneOf items.reverse

/-- The item of a group. -/
def grouped (start : GroupStart) (inner : Item) : Item :=
  match start with
  | .group _ => ⟨.group inner.pattern, inner.depth + 1, false⟩
  | _ => ⟨inner.pattern, inner.depth + 1, false⟩

/-- The items with the last one repeated. -/
def repeatLast (items : List Item) (least : Nat) (most : Option Nat) : Option (List Item) :=
  match items with
  | [] => none
  | last :: rest =>
    if last.isFlags then none
    else some (⟨repeatedly last.pattern least most, last.depth + 1, false⟩ :: rest)

end Item

/-! ### Whole patterns -/

/-- What an escape stands for outside of brackets. -/
def Atom.pattern (flags : Flags) : Atom → Pattern
  | .literal c => flags.literal c
  | .chars members => ofSet members
  | .look condition => .look condition

/-- An item that is no group and no repetition. -/
def readSimple (flags : Flags) : List Char → Option (Item × List Char)
  | [] => none
  | '[' :: rest =>
    (readSet flags (2 * rest.length + 2) rest).map fun (bracket, rest) =>
      (⟨ofSet bracket.chars, bracket.depth, false⟩, rest)
  | '\\' :: rest =>
    (readEscape flags rest).map fun (atom, rest) => (.simple (atom.pattern flags), rest)
  | '.' :: rest => if flags.ascii then none else some (.simple flags.dot, rest)
  | '^' :: rest => some (.simple (.look flags.startLook), rest)
  | '$' :: rest => some (.simple (.look flags.endLook), rest)
  | c :: rest => some (.simple (flags.literal c), rest)

/-- What a group holds. -/
structure GroupBody where
  item : Item
  /-- the names of the groups in it -/
  names : List String

/-- A group that is read to its end. -/
def GroupBody.ofItems (done items : List Item) : GroupBody :=
  ⟨.oneOf (.inSequence items :: done), []⟩

/-- A group up to its closing parenthesis or the end of the text, which is left over. `done` holds
the alternatives that are complete, `items` those of the last one, both last one first. Each step
takes a character, so `fuel` need not exceed their number. -/
def readGroup : Nat → Flags → List Item → List Item → List Char → Option (GroupBody × List Char)
  | 0, _, _, _, _ => none
  | fuel + 1, flags, done, items, cs =>
    let repeatLast (least : Nat) (most : Option Nat) (rest : List Char) :=
      (Item.repeatLast items least most).bind fun items =>
        readGroup fuel flags done items (skipLazy rest)
    match flags.skip cs with
    | [] => some (.ofItems done items, [])
    | ')' :: rest => some (.ofItems done items, ')' :: rest)
    | '|' :: rest => readGroup fuel flags (.inSequence items :: done) [] rest
    | '*' :: rest => repeatLast 0 none rest
    | '+' :: rest => repeatLast 1 none rest
    | '?' :: rest => repeatLast 0 (some 1) rest
    | '\x7b' :: rest =>
      match readBounds flags rest with
      | some (least, most, rest) => repeatLast least most (flags.skip rest)
      | none => none
    | '(' :: rest =>
      match readGroupStart flags rest with
      | none => none
      | some (.directive flags, rest) => readGroup fuel flags done (.directive :: items) rest
      | some (start, rest) =>
        let (inner, name) := match start with
          | .group name => (flags, name.toList)
          | .plain inner => (inner, [])
          | .directive inner => (inner, [])
        match readGroup fuel inner [] [] rest with
        | some (inside, ')' :: rest) =>
          (readGroup fuel flags done (.grouped start inside.item :: items) rest).map
            fun (whole, rest) => (⟨whole.item, name ++ inside.names ++ whole.names⟩, rest)
        | _ => none
    | cs =>
      match readSimple flags cs with
      | some (item, rest) => readGroup fuel flags done (item :: items) rest
      | none => none

/-- How deep the notation of a pattern may nest. -/
def nestingLimit : Nat := 250

/-- The pattern that a text writes; the names of its groups are distinct. -/
def read (flags : Flags) (s : String) : Option Pattern :=
  match readGroup (s.toList.length + 1) flags [] [] s.toList with
  | some (whole, []) =>
    let distinct := whole.names.eraseDups.length = whole.names.length
    if distinct && whole.item.depth ≤ nestingLimit && whole.item.pattern.fits then
      some whole.item.pattern
    else none
  | _ => none

end DocQuery.Pattern
