import DocQuery.Pattern.Flags
import DocQuery.Text.Hex

/-!
# Escapes in patterns

A backslash gives the character behind it another meaning: a character by its code point, a set of
characters, a condition on a place; or it takes a meaning away.
-/

namespace DocQuery.Pattern

/-- What a single item of a pattern stands for. -/
inductive Atom where
  | literal (c : Char)
  | chars (members : CharSet)
  | look (condition : Look)

/-- The text up to a closing brace, and what follows the brace. -/
def readBraced (flags : Flags) : Nat → List Char → Option (List Char × List Char)
  | 0, _ => none
  | fuel + 1, cs =>
    match flags.skip cs with
    | [] => none
    | '\x7d' :: rest => some ([], rest)
    | c :: rest => (readBraced flags fuel rest).map fun (name, rest) => (c :: name, rest)

/-- A number of characters, and what follows them. -/
def readSome (flags : Flags) : Nat → List Char → Option (List Char × List Char)
  | 0, cs => some ([], cs)
  | n + 1, cs =>
    match flags.skip cs with
    | [] => none
    | c :: rest => (readSome flags n rest).map fun (more, rest) => (c :: more, rest)

/-- A character by its code point, if it is one. -/
def charOf? (n : Nat) : Option Char :=
  if n < 0xD800 || (0xDFFF < n && n < 0x110000) then some (Char.ofNat n) else none

/-- The character with the code point that some digits in base sixteen mean. -/
def charOfDigits? (digits : List Char) : Option Char :=
  if digits.isEmpty then none else (Text.hexValue? digits).bind charOf?

/-- A code point: `width` digits in base sixteen, or any number of them in braces. -/
def readCodePoint (flags : Flags) (width : Nat) (cs : List Char) : Option (Char × List Char) :=
  match flags.skip cs with
  | '\x7b' :: rest =>
    (readBraced flags (rest.length + 1) rest).bind fun (digits, rest) =>
      (charOfDigits? digits).map fun c => (c, rest)
  | rest =>
    (readSome flags width rest).bind fun (digits, rest) =>
      (charOfDigits? digits).map fun c => (c, rest)

/-- The set with a name, or all other characters. -/
def namedSet? (flags : Flags) (negated : Bool) (name : List Char) : Option CharSet :=
  if flags.ascii then none
  else (CharSet.named? name).bind fun (chars, others) => flags.close? (negated != others) chars

/-- A set with a name: one letter, or a name in braces. -/
def readProperty (flags : Flags) (negated : Bool) (cs : List Char) :
    Option (CharSet × List Char) :=
  match flags.skip cs with
  | [] => none
  | '\\' :: _ => none
  | '\x7b' :: rest =>
    (readBraced flags (rest.length + 1) rest).bind fun (name, rest) =>
      (namedSet? flags negated name).map fun chars => (chars, rest)
  | c :: rest => (namedSet? flags negated [c]).map fun chars => (chars, rest)

/-- The kind of edge that a name in braces asks for. -/
def namedEdge? (name : List Char) : Option WordEdge :=
  if name = "start".toList then some .start
  else if name = "end".toList then some .stop
  else if name = "start-half".toList then some .startHalf
  else if name = "end-half".toList then some .stopHalf
  else none

/-- The edge of a word. A brace with something else than a name behind it belongs to a
repetition. -/
def readEdge (flags : Flags) (cs : List Char) : Option (WordEdge × List Char) :=
  match cs with
  | '\x7b' :: rest =>
    match flags.skip rest with
    | [] => none
    | c :: _ =>
      if c.isAlpha || c = '-' then
        (readBraced flags (rest.length + 1) rest).bind fun (name, rest) =>
          (namedEdge? name).map fun edge => (edge, rest)
      else some (.boundary, cs)
  | _ => some (.boundary, cs)

/-- The character that a letter behind a backslash stands for. -/
def controlChar? (c : Char) : Option Char :=
  if c = 'a' then some '\x07'
  else if c = 'f' then some '\x0c'
  else if c = 't' then some '\t'
  else if c = 'n' then some '\n'
  else if c = 'r' then some '\r'
  else if c = 'v' then some '\x0b'
  else none

/-- The set that a letter behind a backslash stands for. -/
def shortSet? (flags : Flags) (c : Char) : Option CharSet :=
  if c = 'd' then some flags.digits
  else if c = 's' then some flags.blanks
  else if c = 'w' then some flags.wordChars
  else if flags.ascii then none
  else if c = 'D' then some flags.digits.complement
  else if c = 'S' then some flags.blanks.complement
  else if c = 'W' then some flags.wordChars.complement
  else none

/-- What a backslash and the text behind it mean. Every other ASCII character that is no letter and
no digit stands for itself. A code point of two digits is a byte, so it must be one of ASCII where
all characters are. -/
def readEscape (flags : Flags) : List Char → Option (Atom × List Char)
  | [] => none
  | 'x' :: rest =>
    (readCodePoint flags 2 rest).bind fun (c, tail) =>
      if flags.ascii && (flags.skip rest).head? != some '\x7b' && 128 ≤ c.toNat then none
      else some (.literal c, tail)
  | 'u' :: rest => (readCodePoint flags 4 rest).map fun (c, rest) => (.literal c, rest)
  | 'U' :: rest => (readCodePoint flags 8 rest).map fun (c, rest) => (.literal c, rest)
  | 'p' :: rest => (readProperty flags false rest).map fun (chars, rest) => (.chars chars, rest)
  | 'P' :: rest => (readProperty flags true rest).map fun (chars, rest) => (.chars chars, rest)
  | 'A' :: rest => some (.look .textStart, rest)
  | 'z' :: rest => some (.look .textEnd, rest)
  | 'b' :: rest =>
    (readEdge flags rest).map fun (edge, rest) => (.look (.word edge flags.ascii), rest)
  | 'B' :: rest => some (.look (.word .noBoundary flags.ascii), rest)
  | '<' :: rest => some (.look (.word .start flags.ascii), rest)
  | '>' :: rest => some (.look (.word .stop flags.ascii), rest)
  | c :: rest =>
    match shortSet? flags c, controlChar? c with
    | some chars, _ => some (.chars chars, rest)
    | none, some control => some (.literal control, rest)
    | none, none => if c.toNat < 128 && !c.isAlphanum then some (.literal c, rest) else none

end DocQuery.Pattern
