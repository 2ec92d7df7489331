import DocQuery.Coercion
import DocQuery.Text.Alphanumeric

/-!
# Conditions in request texts

The text of a filter may chain operators in braces, each in front of its operand, as in the range
`{$gte}1{$lte}18`. `Condition.read` cuts a text into such terms without losing a character;
`Condition.compile` turns the terms into the value that is stored under the field's path.
-/

namespace DocQuery

/-- An operand with the operator in front of it, if there is one. -/
structure Condition.Term where
  operator : Option String
  operand : String
deriving DecidableEq

/-- A request text cut into terms. -/
structure Condition where
  /-- the text began with the mark of an alternative -/
  isAlternative : Bool
  /-- the text behind that mark -/
  raw : String
  terms : List Condition.Term
deriving DecidableEq

namespace Condition

/-- The characters before the first brace that opens. -/
def untilBrace (cs : List Char) : List Char := cs.takeWhile (· != '\x7b')

/-- The characters from the first brace that opens. -/
def fromBrace (cs : List Char) : List Char := cs.dropWhile (· != '\x7b')

theorem fromBrace_length_le (cs : List Char) : (fromBrace cs).length ≤ cs.length :=
  (List.dropWhile_sublist _).length_le

/-- The characters between an opening brace and the first closing one, and what follows that. -/
def splitOperator : List Char → Option (List Char × List Char)
  | [] => none
  | '\x7d' :: rest => some ([], rest)
  | c :: rest => (splitOperator rest).map fun (operator, tail) => (c :: operator, tail)

theorem splitOperator_length_lt {cs operator tail : List Char}
    (h : splitOperator cs = some (operator, tail)) : tail.length < cs.length := by
  fun_induction splitOperator cs generalizing operator tail with
  | case1 => simp at h
  | case2 rest => simp at h; simp [h.2]
  | case3 c rest _ ih =>
    simp only [Option.map_eq_some_iff] at h
    obtain ⟨⟨o, t⟩, hs, he⟩ := h
    simp only [Prod.mk.injEq] at he
    have := ih hs
    simp only [List.length_cons, ← he.2]
    omega

/-- The terms of a text: an operator in braces with the characters up to the next brace, or
characters without an operator. An opening brace that is never closed is no operator, and the rest
of the text is one operand. -/
def termsOf (cs : List Char) : List Term :=
  match cs with
  | [] => []
  | c :: rest =>
    if c = '\x7b' then
      match h : splitOperator rest with
      | none => [⟨none, String.ofList (c :: rest)⟩]
      | some (operator, tail) =>
        have := splitOperator_length_lt h
        have := fromBrace_length_le tail
        ⟨some (String.ofList operator), String.ofList (untilBrace tail)⟩ :: termsOf (fromBrace tail)
    else
      have := fromBrace_length_le rest
      ⟨none, String.ofList (c :: untilBrace rest)⟩ :: termsOf (fromBrace rest)
termination_by cs.length
decreasing_by all_goals simp only [List.length_cons]; omega

/-- The text without the mark of an alternative, if it begins with it. -/
def stripMark : List Char → Option (List Char)
  | '\x7b' :: '$' :: 'o' :: 'r' :: '\x7d' :: rest => some rest
  | _ => none

/-- A text cut into terms. -/
def read (s : String) : Condition :=
  match stripMark s.toList with
  | some rest => ⟨true, String.ofList rest, termsOf rest⟩
  | none => ⟨false, s, termsOf s.toList⟩

/-- A pattern that finds a text whatever stands for its punctuation: each character that is no
letter, number or underscore may be any one character. -/
def substringPattern (s : String) : String :=
  String.ofList (s.toList.map fun c => if Text.isAlphanumeric c || c = '_' then c else '.')

/-- The items of a list: what stands between commas, without blanks at the ends and without empty
ones. -/
def listItems (s : String) : List String :=
  ((s.toList.splitOn ',').map fun item => Text.trim (String.ofList item)).filter (· != "")

/-- Writes a term into a document of operators. -/
def putTerm (info : Option FieldInfo) (ops : Document) (term : Term) : Document :=
  match term.operator with
  | none => ops.put "$eq" (coerceOrText info term.operand)
  | some "$exists" =>
    let word := Text.trim term.operand
    ops.put "$exists" (.boolean (!(word = "false" || word = "0")))
  | some "$includes" =>
    (ops.put "$regex" (.string (substringPattern term.operand))).put "$options" (.string "i")
  | some "$in" => ops.put "$in" (.array ((listItems term.operand).map (coerceOrText info)))
  | some "$nin" => ops.put "$nin" (.array ((listItems term.operand).map (coerceOrText info)))
  | some operator => ops.put operator (coerceOrText info term.operand)

/-- An operator begins with a dollar sign. -/
def isOperator (s : String) : Bool := s.toList.head? == some '$'

/-- The condition under a field: a value for a text without operators, a document of operators
otherwise. If anything in braces is no operator, the whole text is meant literally. -/
def compile (info : Option FieldInfo) (c : Condition) : Value :=
  match c.terms with
  | [] => coerceOrText info ""
  | [⟨none, literal⟩] => coerceOrText info literal
  | terms =>
    if terms.all fun term => term.operator.all isOperator then
      .document (terms.foldl (putTerm info) [])
    else coerceOrText info c.raw

end Condition

end DocQuery
