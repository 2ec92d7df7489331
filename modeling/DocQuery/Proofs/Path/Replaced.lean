import DocQuery.Proofs.Path.Values

/-!
# One place in a document

`Replaces` says of two documents that they are the same but for one place: where the one has a value at
a path through documents, the other has another value, or the field is missing there.  Keys and their
order stay at every depth.  Changing the fields at a path does this if there is a value at the path
(`replaces_iff`), and so does setting it (`set_eq_update`).

Behind an array there is no value at a path, but fields are changed there, too: removing them changes
nothing only if nothing is found at the path at all (`remove_eq_self_iff`).
-/

namespace DocQuery.Path

/-- The second document has `new` in the place of the value `old` that the first one has at a path
through documents; for `none` the field is missing. -/
inductive Replaces (old : Value) (new : Option Value) : Path → Document → Document → Prop
  | field {key : String} {before : Document} (hkey : key ∉ before.keys) (after : Document) :
      Replaces old new [key] (before ++ (key, old) :: after)
        (before ++ (new.map (Prod.mk key)).toList ++ after)
  | inside {key : String} {path : Path} {before sub replaced : Document} (hkey : key ∉ before.keys)
      (after : Document) (hsub : Replaces old new path sub replaced) :
      Replaces old new (key :: path) (before ++ (key, .document sub) :: after)
        (before ++ (key, .document replaced) :: after)

variable {f : Value → Option Value} {doc out before : Document} {key : String} {path : Path}
  {old value : Value} {new : Option Value}

/-! ### Replacing the value at a path -/

theorem Replaces.ne_nil (h : Replaces old new path doc out) : path ≠ [] := by
  cases h <;> simp

theorem replaces_update (new : Option Value) (h : get doc path = some old) :
    Replaces old new path doc (update (fun _ => new) doc path) := by
  induction path generalizing doc with
  | nil => cases h
  | cons key path ih =>
    rw [get_cons, Option.bind_eq_some_iff] at h
    obtain ⟨found, hfound, h⟩ := h
    obtain ⟨before, after, hkey, rfl⟩ := Keyed.exists_split_of_lookup hfound
    cases path with
    | nil =>
      obtain rfl : found = old := Option.some.inj h
      have hfield : Replaces found new [key] _ _ := .field hkey after
      simp only [update, hfound]
      cases new with
      | none => simpa [Document.erase, Keyed.erase_split hkey] using hfield
      | some value => simpa [Document.put, Keyed.put_split hkey] using hfield
    | cons next rest =>
      cases found with
      | document sub =>
        rw [update_cons_cons, hfound]
        dsimp only
        rw [Document.put, Keyed.put_split hkey]
        exact .inside hkey after (ih h)
      | _ => cases h

/-- There is one way to replace the value at a path. -/
theorem replaces_iff :
    Replaces old new path doc out ↔
      get doc path = some old ∧ out = update (fun _ => new) doc path := by
  constructor
  · intro h
    induction h with
    | field hkey after =>
      refine ⟨Keyed.lookup_split hkey old after, ?_⟩
      rw [update, Document.get?, Keyed.lookup_split hkey]
      cases new with
      | none => simp [Document.erase, Keyed.erase_split hkey]
      | some new => simp [Document.put, Keyed.put_split hkey]
    | inside hkey after hsub ih =>
      obtain ⟨next, rest, rfl⟩ := List.exists_cons_of_ne_nil hsub.ne_nil
      obtain ⟨hget, rfl⟩ := ih
      refine ⟨?_, ?_⟩
      · rw [get_cons, Document.get?, Keyed.lookup_split hkey]
        exact hget
      · rw [update_cons_cons, Document.get?, Keyed.lookup_split hkey]
        exact (Keyed.put_split hkey _ _ after).symm
  · rintro ⟨h, rfl⟩
    exact replaces_update new h

/-- Where there is a value, setting another one makes no document on the way. -/
theorem set_eq_update (h : get doc path = some old) (value : Value) :
    set doc path value = update (fun _ => some value) doc path := by
  induction path generalizing doc with
  | nil => rfl
  | cons key path ih =>
    rw [get_cons, Option.bind_eq_some_iff] at h
    obtain ⟨found, hfound, h⟩ := h
    cases path with
    | nil => simp only [set, update, hfound]
    | cons next rest =>
      cases found with
      | document sub =>
        rw [update_cons_cons, set, hfound]
        · exact congrArg (fun sub => doc.put key (.document sub)) (ih h)
        · simp
      | _ => cases h

/-! ### Removing the fields at a path -/

theorem updateBelow_eq_self_iff {next : String} {rest : Path}
    (ih : ∀ sub : Document, update f sub (next :: rest) = sub ↔ candidates sub (next :: rest) = []) :
    updateBelow f (next :: rest) value = value ↔ below value (next :: rest) = [] := by
  cases value with
  | document sub => simpa [updateBelow, below] using ih sub
  | array items =>
    rw [updateBelow, below, Value.array.injEq, List.flatMap_eq_nil_iff]
    conv_lhs => rhs; rw [← List.map_id items]
    rw [List.map_inj_left]
    refine forall₂_congr fun item _ => ?_
    cases item with
    | document sub => simpa using ih sub
    | _ => simp
  | _ => simp [updateBelow, below]

/-- Removing what is at a path changes nothing just if nothing is found there. -/
theorem remove_eq_self_iff : remove doc path = doc ↔ candidates doc path = [] := by
  rw [remove]
  induction path generalizing doc with
  | nil => simp [update, candidates]
  | cons key path ih =>
    cases hget : doc.get? key with
    | none => cases path <;> simp [update, candidates_cons_of_none hget, hget]
    | some value =>
      rw [candidates_cons_of_get hget]
      obtain ⟨before, after, hkey, rfl⟩ := Keyed.exists_split_of_lookup hget
      cases path with
      | nil =>
        have hbelow : below value [] ≠ [] := by cases value <;> simp [below]
        simp [update, hget, Document.erase, Keyed.erase_split hkey, hbelow]
      | cons next rest =>
        rw [update_cons_cons, hget]
        dsimp only
        rw [Document.put, Keyed.put_split hkey, ← updateBelow_eq_self_iff fun sub => ih]
        simp

end DocQuery.Path
