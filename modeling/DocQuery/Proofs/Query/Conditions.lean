import DocQuery.Proofs.Filter.Cutting
import DocQuery.Proofs.Path.Values
import DocQuery.Proofs.Store.Matching

/-!
# What the texts of a request ask for

A text without operators is taken for a value of the declared kind, or for itself if it writes none
(`Value.IsWritten`).  The store asks for such a value by itself, so a document is found if the value at
the path equals it.  A text without braces has no operators (`Condition.read_of_plain`), and no text asks
for an array.
-/

namespace DocQuery

open Test

/-! ### The values that texts write -/

/-- The values of a kind that texts write. -/
inductive FieldKind.Writes : FieldKind → Value → Prop
  | objectId (id : ObjectId) : Writes .objectId (.objectId id)
  | date (t : Instant) : Writes .date (.date t)
  | whole (n : Int64) : Writes .number (.int64 n)
  | real (x : Double) : Writes .number (.double x)
  | boolean (b : Bool) : Writes .boolean (.boolean b)
  | string (s : String) : Writes .string (.string s)
  | document (s : String) : Writes .document (.string s)
  | mixed (s : String) : Writes .mixed (.string s)

namespace FieldKind

variable {s : String} {value : Value}

theorem writes_of_readNumber (h : readNumber s = some value) : number.Writes value := by
  unfold readNumber at h
  split at h
  · cases h
    exact .whole _
  · obtain ⟨x, -, rfl⟩ := Option.map_eq_some_iff.1 h
    exact .real x

theorem writes_of_readBoolean (h : readBoolean s = some value) : boolean.Writes value := by
  unfold readBoolean at h
  split at h
  · cases h
    exact .boolean true
  · split at h <;> cases h
    exact .boolean false

theorem writes_of_coerce {kind : FieldKind} (h : kind.coerce? s = some value) :
    kind.Writes value := by
  unfold coerce? at h
  split at h
  · obtain ⟨id, -, rfl⟩ := Option.map_eq_some_iff.1 h
    exact .objectId id
  · obtain ⟨t, -, rfl⟩ := Option.map_eq_some_iff.1 h
    exact .date t
  · exact writes_of_readNumber h
  · exact writes_of_readBoolean h
  · cases h
    exact .string s
  · cases h
    exact .document s
  · cases h
    exact .mixed s

end FieldKind

/-- A value that a text is taken for under some declaration. -/
def Value.IsWritten (value : Value) : Prop := ∃ kind : FieldKind, kind.Writes value

namespace Value.IsWritten

variable {value : Value}

theorem string (s : String) : (Value.string s).IsWritten := ⟨_, .string s⟩

theorem isScalar (h : value.IsWritten) : value.IsScalar := by
  obtain ⟨_, h⟩ := h
  cases h <;> trivial

theorem isArray (h : value.IsWritten) : value.isArray = false := by
  obtain ⟨_, h⟩ := h
  cases h <;> rfl

theorem coerceOrText (info : Option FieldInfo) (s : String) : (coerceOrText info s).IsWritten := by
  unfold DocQuery.coerceOrText
  split
  · exact .string s
  · next info =>
    cases h : info.kind.coerce? s with
    | none => exact .string s
    | some value => exact ⟨_, FieldKind.writes_of_coerce h⟩

/-- A value that a text writes is asked for by itself. -/
theorem readField (h : value.IsWritten) {path : String} (hpath : isOperatorKey path = false) :
    Test.readField path value = .ok (.equal path value) := by
  obtain ⟨_, h⟩ := h
  rw [readField_of_field hpath]
  cases h <;> rfl

/-- A written value at a path is found if it equals the value that is asked for. -/
theorem equalsAny_iff {path : String} {asked found : Value} {doc : Document} (hasked : asked.IsWritten)
    (hfound : found.IsWritten) (hget : Path.get doc (Path.ofText path) = some found) :
    equalsAny doc path asked = true ↔ found.equals asked = true := by
  have hvalues : valuesAt doc path = [found] := Path.candidates_of_get hfound.isScalar hget
  obtain ⟨_, hasked⟩ := hasked
  unfold equalsAny
  rw [hvalues]
  cases hasked <;> simp

end Value.IsWritten

/-- A document is found by a written value if that value is found at the path. -/
theorem StoredCollection.finds_written_iff {base : StoredCollection} {path : String} {asked : Value}
    {doc : Document} (hpath : isOperatorKey path = false) (hasked : asked.IsWritten) :
    base.Finds [(path, asked)] doc ↔ equalsAny doc path asked = true := by
  have hread : Test.read [(path, asked)] = .ok (.equal path asked) :=
    read_singleton_iff.2 (hasked.readField hpath)
  have haccepts : base.Accepts [(path, asked)] :=
    accepts_iff.2 ⟨⟨_, hread⟩, .inl ⟨_, hread, rfl⟩⟩
  rw [finds_iff_admits haccepts, admits_singleton_iff]
  simp only [hasked.readField hpath, Except.ok.injEq, exists_eq_left', holds]

/-! ### Conditions -/

namespace Condition

variable {s : String}

theorem stripMark_of_plain {cs : List Char} (h : '\x7b' ∉ cs) : stripMark cs = none := by
  unfold stripMark
  split
  · simp at h
  · rfl

theorem termsOf_of_plain {cs : List Char} (hne : cs ≠ []) (h : '\x7b' ∉ cs) :
    termsOf cs = [⟨none, String.ofList cs⟩] := by
  obtain ⟨c, rest, rfl⟩ := List.exists_cons_of_ne_nil hne
  rw [List.mem_cons, not_or] at h
  obtain ⟨huntil, hfrom⟩ := untilBrace_of_notMem h.2
  rw [termsOf_text (Ne.symm h.1), huntil, hfrom, termsOf]

/-- A text without braces is no alternative, and it is meant literally. -/
theorem read_of_plain (h : '\x7b' ∉ s.toList) :
    read s = ⟨false, s, if s = "" then [] else [⟨none, s⟩]⟩ := by
  rw [read, stripMark_of_plain h]
  dsimp only
  split
  · next hempty => rw [hempty, String.toList_empty, termsOf]
  · next hne => rw [termsOf_of_plain (mt String.toList_eq_nil_iff.1 hne) h, String.ofList_toList]

theorem compile_of_plain (h : '\x7b' ∉ s.toList) (info : Option FieldInfo) :
    (read s).compile info = coerceOrText info s := by
  rw [read_of_plain h]
  split
  · next hempty => rw [hempty]; rfl
  · rfl

/-- No condition is an array. -/
theorem isArray_compile (condition : Condition) (info : Option FieldInfo) :
    (condition.compile info).isArray = false := by
  have htext : ∀ s, (coerceOrText info s).isArray = false := fun s =>
    (Value.IsWritten.coerceOrText info s).isArray
  unfold compile
  split
  · exact htext ""
  · exact htext _
  · split
    · rfl
    · exact htext _

end Condition

end DocQuery
