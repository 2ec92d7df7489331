import DocQuery.Pattern.Basic
import DocQuery.Pattern.Property

/-!
# Flags of patterns

Flags say how the notation of a pattern is to be read: what counts in it, and which characters its
parts stand for.
-/

namespace DocQuery.Pattern

/-- What the flags of a group say. -/
structure Flags where
  /-- case does not count -/
  caseless : Bool
  /-- `^` and `$` stand for the ends of lines -/
  multiline : Bool
  /-- `.` stands for a line feed too -/
  dotAll : Bool
  /-- blanks and comments do not count -/
  verbose : Bool
  /-- a carriage return ends a line too -/
  crlf : Bool
  /-- sets of characters hold ASCII characters only -/
  ascii : Bool

namespace Flags

/-- All flags off. -/
def off : Flags := ⟨false, false, false, false, false, false⟩

/-- The text behind blanks and comments. -/
def skipVerbose : Nat → List Char → List Char
  | 0, cs => cs
  | fuel + 1, cs =>
    match cs with
    | [] => []
    | '#' :: rest => skipVerbose fuel (rest.dropWhile (· != '\n'))
    | c :: rest => if Text.isBlank c then skipVerbose fuel rest else cs

/-- The text behind what does not count. -/
def skip (flags : Flags) (cs : List Char) : List Char :=
  if flags.verbose then skipVerbose cs.length cs else cs

/-- A set with the characters that differ from its members only by a case that does not count. -/
def fold (flags : Flags) (chars : CharSet) : CharSet :=
  if !flags.caseless then chars else if flags.ascii then chars.foldedAscii else chars.folded

/-- A set as it was written, or all other characters; those are not all of ASCII. -/
def close? (flags : Flags) (negated : Bool) (chars : CharSet) : Option CharSet :=
  if !negated then some (flags.fold chars)
  else if flags.ascii then none
  else some (flags.fold chars).complement

/-- A literal character. -/
def literal (flags : Flags) (c : Char) : Pattern :=
  if !flags.caseless then .literal [c]
  else if flags.ascii then ofSet (CharSet.foldedAscii (.single c))
  else ofSet (.variants c)

/-- The pattern of `.`. -/
def dot (flags : Flags) : Pattern :=
  if flags.dotAll then .set .all
  else if flags.crlf then .set (.complement (.union (.single '\n') (.single '\r')))
  else .set (.complement (.single '\n'))

def startLook (flags : Flags) : Look :=
  if !flags.multiline then .textStart else if flags.crlf then .crlfLineStart else .lineStart

def endLook (flags : Flags) : Look :=
  if !flags.multiline then .textEnd else if flags.crlf then .crlfLineEnd else .lineEnd

/-- The digits. -/
def digits (flags : Flags) : CharSet :=
  if flags.ascii then .range 48 57 else Text.categoryNd

/-- The blanks. -/
def blanks (flags : Flags) : CharSet :=
  if flags.ascii then .union (.range 9 13) (.single ' ') else Text.blankRanges

/-- The word characters. -/
def wordChars (flags : Flags) : CharSet :=
  if flags.ascii then CharSet.unions [.range 48 57, .range 65 90, .single '_', .range 97 122]
  else Text.wordRanges

/-- One flag set on or off. -/
def with? (flags : Flags) (on : Bool) (c : Char) : Option Flags :=
  if c = 'i' then some { flags with caseless := on }
  else if c = 'm' then some { flags with multiline := on }
  else if c = 's' then some { flags with dotAll := on }
  else if c = 'x' then some { flags with verbose := on }
  else if c = 'R' then some { flags with crlf := on }
  else if c = 'u' then some { flags with ascii := !on }
  else if c = 'U' then some flags
  else none

end Flags

end DocQuery.Pattern
