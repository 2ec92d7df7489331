import DocQuery.Proofs.Path.Filled
import DocQuery.Proofs.Value.Order

/-!
# The value at a path

`Path.get` goes through documents only, so there is at most one value at a path.  Here it is taken apart
one key at a time (`get_cons`, with `inside` for what lies in one value), and at any key (`get_append`).
Changing the fields at a path changes the value there (`get_update_self`) and none that is apart from it
(`get_update_of_apart`); the same holds for the fields at several paths.  A scalar is also left alone by
changes in front of it and behind it, as long as they keep documents (`get_update_of_scalar`).
-/

namespace DocQuery.Path

variable {f : Value → Option Value} {doc : Document} {path other rest : Path} {value : Value}

/-! ### One key at a time -/

/-- The value at a path inside of a value. -/
def inside : Value → Path → Option Value
  | value, [] => some value
  | .document sub, key :: rest => get sub (key :: rest)
  | _, _ :: _ => none

theorem get_cons (doc : Document) (key : String) (rest : Path) :
    get doc (key :: rest) = (doc.get? key).bind fun value => inside value rest := by
  cases rest with
  | nil => cases h : doc.get? key <;> simp [get, h, inside]
  | cons next rest =>
    rw [get]
    · cases doc.get? key with
      | none => rfl
      | some value => cases value <;> rfl
    · simp

/-- The value behind a path lies inside of the value at it. -/
theorem get_append (hpath : path ≠ []) (doc : Document) (rest : Path) :
    get doc (path ++ rest) = (get doc path).bind fun value => inside value rest := by
  induction path generalizing doc with
  | nil => exact absurd rfl hpath
  | cons key path ih =>
    rw [List.cons_append, get_cons, get_cons, Option.bind_assoc]
    refine Option.bind_congr fun value _ => ?_
    cases path with
    | nil => rfl
    | cons next path =>
      cases value with
      | document sub => exact ih (by simp) sub
      | _ => rfl

theorem get_congr {key : String} {others : Document} (rest : Path)
    (h : doc.get? key = others.get? key) : get doc (key :: rest) = get others (key :: rest) := by
  rw [get_cons, get_cons, h]

/-- The value at a path is found there. -/
theorem mem_candidates_of_get (h : get doc path = some value) : value ∈ candidates doc path := by
  induction path generalizing doc with
  | nil => simp [get] at h
  | cons key path ih =>
    rw [get_cons, Option.bind_eq_some_iff] at h
    obtain ⟨found, hfound, h⟩ := h
    rw [candidates_cons_of_get hfound]
    cases path with
    | nil =>
      obtain rfl : found = value := Option.some.inj h
      cases found <;> simp [below]
    | cons next path =>
      cases found with
      | document sub => exact ih h
      | _ => cases h

/-- A scalar is all that is found at its path. -/
theorem candidates_of_get (hvalue : value.IsScalar) (h : get doc path = some value) :
    candidates doc path = [value] := by
  induction path generalizing doc with
  | nil => simp [get] at h
  | cons key path ih =>
    rw [get_cons, Option.bind_eq_some_iff] at h
    obtain ⟨found, hfound, h⟩ := h
    rw [candidates_cons_of_get hfound]
    cases path with
    | nil =>
      obtain rfl : found = value := Option.some.inj h
      cases found <;> first | rfl | exact hvalue.elim
    | cons next path =>
      cases found with
      | document sub => exact ih h
      | _ => cases h

/-- What is written at a path is the value there. -/
theorem get_set_self (hpath : path ≠ []) (doc : Document) (value : Value) :
    get (set doc path value) path = some value := by
  induction path generalizing doc with
  | nil => exact absurd rfl hpath
  | cons key path ih =>
    rw [get_cons]
    cases path with
    | nil => rw [set, get?_put_self, Option.bind_some, inside]
    | cons next path =>
      have hnext : next :: path ≠ [] := List.cons_ne_nil next path
      rw [set.eq_3 _ _ _ _ hnext, get?_put_self, Option.bind_some]
      exact ih hnext _

/-! ### Changing the fields at a path -/

theorem get_update_of_apart (h : Apart path other) (doc : Document) :
    get (update f doc path) other = get doc other := by
  induction path generalizing doc other with
  | nil => exact absurd h (not_apart_nil other)
  | cons key path ih =>
    obtain ⟨first, other, rfl⟩ := List.exists_cons_of_ne_nil h.symm.ne_nil
    by_cases hkey : first = key
    · subst hkey
      have hapart := apart_cons_iff.1 h
      obtain ⟨next, path, rfl⟩ := List.exists_cons_of_ne_nil hapart.ne_nil
      obtain ⟨second, other, rfl⟩ := List.exists_cons_of_ne_nil hapart.symm.ne_nil
      rw [get_cons, get_cons, get?_update_self, Option.bind_map]
      refine Option.bind_congr fun value _ => ?_
      cases value with
      | document sub => exact ih hapart sub
      | _ => rfl
    · exact get_congr other (get?_update_of_ne f hkey doc path)

/-- The value at the path is the changed one. -/
theorem get_update_self (hdoc : doc.WellKeyed) (hpath : path ≠ []) :
    get (update f doc path) path = (get doc path).bind f := by
  induction path generalizing doc with
  | nil => exact absurd rfl hpath
  | cons key path ih =>
    cases path with
    | nil =>
      rw [update]
      cases hget : doc.get? key with
      | none => simp [get, hget]
      | some value =>
        dsimp only
        cases hnew : f value with
        | none => simp [get, hget, hnew, hdoc.get?_erase]
        | some new => simp [get, hget, hnew, get?_put_self]
    | cons next rest =>
      rw [get_cons, get_cons, get?_update_self, Option.bind_map, Option.bind_assoc]
      refine Option.bind_congr fun value hvalue => ?_
      cases value with
      | document sub => exact ih (hdoc.get hvalue) (by simp)
      | _ => rfl

/-- A change behind a path is one inside of the value at it. -/
theorem get_update_behind (hpath : path ≠ []) (doc : Document) (key : String) (rest : Path) :
    get (update f doc (path ++ key :: rest)) path =
      (get doc path).map (updateBelow f (key :: rest)) := by
  induction path generalizing doc with
  | nil => exact absurd rfl hpath
  | cons first path ih =>
    cases path with
    | nil => exact get?_update_self f doc first key rest
    | cons next path =>
      rw [List.cons_append, List.cons_append, get_cons, get_cons, get?_update_self, Option.bind_map,
        Option.map_bind]
      refine Option.bind_congr fun value _ => ?_
      cases value with
      | document sub => exact ih (by simp) sub
      | _ => rfl

section Replaced

variable {g : Value → Value}

/-- Where values are only replaced, the value at the path is the new one. -/
theorem get_update_replaced (doc : Document) (path : Path) :
    get (update (fun value => some (g value)) doc path) path = (get doc path).map g := by
  induction path generalizing doc with
  | nil => rfl
  | cons key path ih =>
    cases path with
    | nil =>
      rw [update]
      cases hget : doc.get? key with
      | none => simp [get, hget]
      | some value => simp [get, hget, get?_put_self]
    | cons next rest =>
      rw [get_cons, get_cons, get?_update_self, Option.bind_map, Option.map_bind]
      refine Option.bind_congr fun value _ => ?_
      cases value with
      | document sub => exact ih sub
      | _ => rfl

/-- A scalar stays as it is if values at another path are replaced, but documents by themselves. -/
theorem get_update_of_scalar (hg : ∀ sub, g (.document sub) = .document sub) (hne : path ≠ other)
    (hpath : path ≠ []) (hvalue : value.IsScalar) (h : get doc other = some value) :
    get (update (fun value => some (g value)) doc path) other = some value := by
  rcases apart_or path other with hapart | ⟨rest, rfl⟩ | ⟨rest, rfl⟩
  · rw [get_update_of_apart hapart, h]
  · -- the change is in front of the scalar, at a document
    obtain ⟨key, rest, rfl⟩ := List.exists_cons_of_ne_nil (l := rest) (by simpa using hne)
    rw [get_append hpath, Option.bind_eq_some_iff] at h
    obtain ⟨found, hfound, h⟩ := h
    rw [get_append hpath, get_update_replaced, hfound, Option.map_some, Option.bind_some]
    cases found with
    | document sub => rw [hg, h]
    | _ => cases h
  · -- the change would be inside of the scalar
    obtain ⟨key, rest, rfl⟩ := List.exists_cons_of_ne_nil (l := rest) (by simpa using Ne.symm hne)
    have hother : other ≠ [] := by
      rintro rfl
      simp [get] at h
    rw [get_update_behind hother, h]
    cases value <;> first | rfl | exact hvalue.elim

end Replaced

/-- A scalar in a field stays as it is if values at other paths are changed. -/
theorem get?_update_of_scalar {key : String} (hpath : path ≠ [key]) (hvalue : value.IsScalar)
    (h : doc.get? key = some value) : (update f doc path).get? key = some value := by
  cases path with
  | nil => exact h
  | cons first rest =>
    by_cases hkey : key = first
    · subst hkey
      obtain ⟨next, rest, rfl⟩ := List.exists_cons_of_ne_nil fun hrest : rest = [] => hpath (by rw [hrest])
      rw [get?_update_self, h]
      cases value <;> first | rfl | exact hvalue.elim
    · rw [get?_update_of_ne f hkey, h]

variable {fills : List (Path × (Value → Option Value))}

theorem get?_updateAll_of_scalar {key : String} (hfills : ∀ fill ∈ fills, fill.1 ≠ [key])
    (hvalue : value.IsScalar) (h : doc.get? key = some value) :
    (updateAll fills doc).get? key = some value := by
  induction fills generalizing doc with
  | nil => exact h
  | cons fill rest ih =>
    rw [List.forall_mem_cons] at hfills
    exact ih hfills.2 (get?_update_of_scalar hfills.1 hvalue h)

theorem get_updateAll_of_apart (h : ∀ fill ∈ fills, Apart fill.1 path) (doc : Document) :
    get (updateAll fills doc) path = get doc path := by
  induction fills generalizing doc with
  | nil => rfl
  | cons fill rest ih =>
    rw [List.forall_mem_cons] at h
    rw [updateAll_cons, ih h.2, get_update_of_apart h.1]

/-- At each of several paths that are apart the value is the changed one. -/
theorem get_updateAll_self (hapart : AllApart fills) (hmem : (path, f) ∈ fills) (hpath : path ≠ [])
    (hdoc : doc.WellKeyed)
    (hkeyed : ∀ fill ∈ fills, ∀ value new, value.WellKeyed → fill.2 value = some new → new.WellKeyed) :
    get (updateAll fills doc) path = (get doc path).bind f := by
  induction fills generalizing doc with
  | nil => cases hmem
  | cons fill rest ih =>
    obtain ⟨hfill, hrest⟩ := List.pairwise_cons.1 hapart
    rw [List.forall_mem_cons] at hkeyed
    rw [updateAll_cons]
    rcases List.mem_cons.1 hmem with rfl | hmem
    · rw [get_updateAll_of_apart fun other hother => (hfill other hother).symm,
        get_update_self hdoc hpath]
    · rw [ih hrest hmem (wellKeyed_update _ hkeyed.1 hdoc) hkeyed.2,
        get_update_of_apart (hfill _ hmem)]

end DocQuery.Path
