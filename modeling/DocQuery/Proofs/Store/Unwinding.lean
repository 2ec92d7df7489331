import DocQuery.Proofs.Path.Replaced
import DocQuery.Proofs.Store.Stages
import Mathlib.Data.List.Forall2

/-!
# Unwinding

`Unwound` says what unwinding at a path is to make of a row: one row for each item of an array at the
path, each the same but for the item in the place of the array; nothing, or the row itself without the
field, where there is a null or an empty array; nothing, or the row itself, where there is no value at the
path; and the row itself where there is any other value.

The rows come out like this (`runUnwind_unwound_iff`), unless rows without a value are kept and fields
are found at the path behind an array.  Such a row has no value at the path, but it loses these fields.
-/

namespace DocQuery

/-- Two rows that are the same but for the value at a path, which is another one or missing. -/
structure Row.Replaces (path : Path) (old : Value) (new : Option Value) (row out : Row) : Prop where
  doc : Path.Replaces old new path row.doc out.doc
  relevance : out.relevance = row.relevance

/-- Something is found at a path, but only behind arrays: there is no value at the path itself. -/
def Path.OnlyBehindArrays (path : Path) (doc : Document) : Prop :=
  get doc path = none ∧ candidates doc path ≠ []

namespace Execution

/-- The rows of one that has a value at a path with nothing to unwind: none, or the row without the value. -/
def Emptied (path : Path) (keepEmpty : Bool) (old : Value) (row : Row) (out : List Row) : Prop :=
  if keepEmpty then ∃ new, out = [new] ∧ row.Replaces path old none new else out = []

/-- The rows that unwinding at a path is to make of one. -/
def Unwound (path : Path) (keepEmpty : Bool) (row : Row) (out : List Row) : Prop :=
  match Path.get row.doc path with
  | none => out = if keepEmpty then [row] else []
  | some .null => Emptied path keepEmpty .null row out
  | some (.array []) => Emptied path keepEmpty (.array []) row out
  | some (.array items) =>
    List.Forall₂ (fun item new => row.Replaces path (.array items) (some item) new) items out
  | some _ => out = [row]

variable {path : Path} {keepEmpty : Bool} {row : Row} {value old : Value}

theorem emptied_of_get (keepEmpty : Bool) (h : Path.get row.doc path = some old) :
    Emptied path keepEmpty old row
      (if keepEmpty then [⟨Path.remove row.doc path, row.relevance⟩] else []) := by
  cases keepEmpty with
  | false => rfl
  | true => exact ⟨_, rfl, Path.replaces_iff.2 ⟨h, rfl⟩, rfl⟩

theorem replaces_set (h : Path.get row.doc path = some old) (item : Value) :
    row.Replaces path old (some item) ⟨Path.set row.doc path item, row.relevance⟩ where
  doc := Path.replaces_iff.2 ⟨h, Path.set_eq_update h item⟩
  relevance := rfl

/-- A row with a value at the path is unwound as it is to be. -/
theorem unwound_of_get (keepEmpty : Bool) (h : Path.get row.doc path = some value) :
    Unwound path keepEmpty row (unwindRow path keepEmpty row) := by
  rw [Unwound, unwindRow]
  simp only [h]
  cases value with
  | null => exact emptied_of_get keepEmpty h
  | array items =>
    cases items with
    | nil => exact emptied_of_get keepEmpty h
    | cons first rest =>
      exact List.forall₂_map_right_iff.2 (List.forall₂_same.2 fun item _ => replaces_set h item)
  | _ => rfl

/-- A row without a value at the path stays if nothing is found there, behind arrays either. -/
theorem unwound_iff_of_get_eq_none (h : Path.get row.doc path = none) :
    Unwound path keepEmpty row (unwindRow path keepEmpty row) ↔
      (keepEmpty = true → Path.candidates row.doc path = []) := by
  rw [Unwound, unwindRow]
  simp only [h]
  cases keepEmpty with
  | false => simp
  | true =>
    obtain ⟨doc, relevance⟩ := row
    simp [Path.remove_eq_self_iff]

theorem unwound_unwindRow_iff :
    Unwound path keepEmpty row (unwindRow path keepEmpty row) ↔
      ¬(keepEmpty = true ∧ path.OnlyBehindArrays row.doc) := by
  rw [Path.OnlyBehindArrays]
  cases h : Path.get row.doc path with
  | none => rw [unwound_iff_of_get_eq_none h]; simp
  | some value => simp [unwound_of_get keepEmpty h]

/-- **Unwinding loses nothing where nothing is behind an array.**  The rows come out in the order of
those they are made of, and each row is unwound as it is to be, unless rows without a value are kept and
there is something at the path only behind arrays. -/
theorem runUnwind_unwound_iff {field : String} {body : Value}
    (hbody : unwindBody body = .ok ("$" ++ field, keepEmpty)) (rows : List Row) :
    runUnwind rows body = .ok (rows.flatMap (unwindRow (Path.ofText field) keepEmpty)) ∧
      ∀ row, Unwound (Path.ofText field) keepEmpty row (unwindRow (Path.ofText field) keepEmpty row) ↔
        ¬(keepEmpty = true ∧ (Path.ofText field).OnlyBehindArrays row.doc) :=
  ⟨runUnwind_of_body rows hbody, fun _ => unwound_unwindRow_iff⟩

end Execution

/-! ### Shirts unwound by their colours -/

namespace ShirtsByColour

open Execution

/-- A shirt with what is known of its print. -/
def shirt (id : Int32) (print : Value) : Row :=
  .ofDocument [("_id", .int32 id), ("print", print), ("size", .int32 40)]

def print (colours : Value) : Value := .document [("colours", colours), ("cut", .string "slim")]

def redAndBlue : Row := shirt 1 (print (.array [.string "red", .string "blue"]))

def colourless : Row := shirt 2 (print (.array []))

def unprinted : Row := shirt 3 .null

/-- A shirt with prints on both sides: there is no value at the path of the colours. -/
def twoSided : Row := shirt 4 (.array [print (.string "red"), print (.string "blue")])

/-- Unwinding by the colours of the print; shirts without colours are kept. -/
def byColour : Value :=
  .document [("path", .string "$print.colours"), ("preserveNullAndEmptyArrays", .boolean true)]

theorem unwindBody_byColour : unwindBody byColour = .ok ("$" ++ "print.colours", true) := rfl

/-- Two colours give two rows, no colours one without the field, and no print leaves the row alone. -/
theorem shirts_unwound :
    unwindBody byColour = .ok ("$" ++ "print.colours", true) ∧
      runUnwind [redAndBlue, colourless, unprinted] byColour =
        .ok [shirt 1 (print (.string "red")), shirt 1 (print (.string "blue")),
          shirt 2 (.document [("cut", .string "slim")]), unprinted] ∧
      ∀ row ∈ [redAndBlue, colourless, unprinted],
        Unwound (Path.ofText "print.colours") true row
          (unwindRow (Path.ofText "print.colours") true row) := by
  obtain ⟨hrun, hrows⟩ :=
    runUnwind_unwound_iff unwindBody_byColour [redAndBlue, colourless, unprinted]
  refine ⟨unwindBody_byColour, hrun, fun row hrow => (hrows row).2 ?_⟩
  rintro ⟨-, hget, hfound⟩
  simp only [List.mem_cons, List.not_mem_nil, or_false] at hrow
  rcases hrow with rfl | rfl | rfl
  · cases hget
  · cases hget
  · exact hfound rfl

/-- The row without a value at the path is to be kept as it is, but its colours are gone. -/
theorem twoSided_loses_colours :
    Path.get twoSided.doc (Path.ofText "print.colours") = none ∧
      runUnwind [twoSided] byColour =
        .ok [shirt 4 (.array [.document [("cut", .string "slim")], .document [("cut", .string "slim")]])] ∧
      ∃ out, runUnwind [twoSided] byColour = .ok out ∧
        ¬Unwound (Path.ofText "print.colours") true twoSided out := by
  refine ⟨rfl, rfl, _, rfl, fun h => ?_⟩
  have hrow : (shirt 4 (.array [.document [("cut", .string "slim")],
      .document [("cut", .string "slim")]])) = twoSided := (List.cons.inj h).1
  simp [twoSided, shirt, print, Row.ofDocument] at hrow

end ShirtsByColour

end DocQuery
