import DocQuery.Catalog.Basic
import DocQuery.Text.Blank
import DocQuery.Text.Quoted

/-!
# Texts as values of a declared kind

The text of a request becomes a value of the kind that its field is declared with. Blanks at the
ends do not count, except for texts, which stay as they are.
-/

namespace DocQuery

/-- A text that is no value of a kind. -/
structure CoercionFault where
  text : String
  expected : FieldKind
deriving DecidableEq

def CoercionFault.message (fault : CoercionFault) : String :=
  "cannot coerce " ++ Text.quoted fault.text ++ " to " ++ fault.expected.label

namespace FieldKind

/-- A date with a time, a date alone, or a number of milliseconds. -/
def readDate (s : String) : Option Instant :=
  match Instant.read s with
  | some t => some t
  | none =>
    match if s.utf8ByteSize = 10 then Instant.read (s ++ "T00:00:00Z") else none with
    | some t => some t
    | none => (Numeral.readInt64 s).map fun n => ⟨n⟩

/-- A whole number of 64 bits, or else any finite number. -/
def readNumber (s : String) : Option Value :=
  match Numeral.readInt64 s with
  | some n => some (.int64 n)
  | none => ((Numeral.readDouble s).filter Double.isFinite).map .double

def readBoolean (s : String) : Option Value :=
  if s = "true" || s = "1" then some (.boolean true)
  else if s = "false" || s = "0" then some (.boolean false)
  else none

/-- The value of a kind that a text means. -/
def coerce? (kind : FieldKind) (s : String) : Option Value :=
  match kind with
  | .objectId => (ObjectId.read (Text.trim s)).map .objectId
  | .date => (readDate (Text.trim s)).map .date
  | .number => readNumber (Text.trim s)
  | .boolean => readBoolean (Text.trim s)
  | .string => some (.string s)
  | .document => some (.string s)
  | .mixed => some (.string s)

def coerce (kind : FieldKind) (s : String) : Except CoercionFault Value :=
  match kind.coerce? s with
  | some value => .ok value
  | none => .error ⟨s, kind⟩

end FieldKind

/-- The value that a text means under a field, or the text itself where nothing is declared or the
text is no value of the declared kind. -/
def coerceOrText (info : Option FieldInfo) (s : String) : Value :=
  match info with
  | none => .string s
  | some info => (info.kind.coerce? s).getD (.string s)

end DocQuery
