import DocQuery.Proofs.Path.Text
import DocQuery.Proofs.Path.WellKeyed

/-!
# The values at a path

`candidates` goes through documents and the documents in arrays.  Here it is taken apart one key at a
time (`candidates_cons`, with `below` for what lies under one value) and put together again:

* `exists_document_of_mem_candidates`: what is found behind a path is found in a document at it;
* `candidates_update_of_apart`: changing the fields at one path leaves alone what is apart from it;
* `mem_candidates_update`: at the path itself there are only changed values afterwards.
-/

namespace DocQuery.Path

/-! ### One key at a time -/

/-- The values at a path inside of a value. -/
def below : Value → Path → List Value
  | .array items, [] => .array items :: items
  | value, [] => [value]
  | .document sub, key :: rest => candidates sub (key :: rest)
  | .array items, key :: rest => items.flatMap fun
      | .document sub => candidates sub (key :: rest)
      | _ => []
  | _, _ :: _ => []

theorem candidates_cons (doc : Document) (key : String) (rest : Path) :
    candidates doc (key :: rest) =
      match doc.get? key with
      | none => []
      | some value => below value rest := by
  cases rest with
  | nil =>
    rw [candidates]
    cases doc.get? key with
    | none => rfl
    | some value => cases value <;> rfl
  | cons next rest =>
    rw [candidates]
    · cases doc.get? key with
      | none => rfl
      | some value => cases value <;> rfl
    · simp

theorem candidates_eq_elim (doc : Document) (key : String) (rest : Path) :
    candidates doc (key :: rest) = (doc.get? key).elim [] fun value => below value rest := by
  rw [candidates_cons]
  cases doc.get? key <;> rfl

/-- What is found in a value, or in the documents of an array. -/
def through (find : Document → List Value) : Value → List Value
  | .document sub => find sub
  | .array items => items.flatMap fun
      | .document sub => find sub
      | _ => []
  | _ => []

theorem below_cons (value : Value) (key : String) (rest : Path) :
    below value (key :: rest) = through (fun sub => candidates sub (key :: rest)) value := by
  cases value <;> rfl

theorem through_nil (value : Value) : through (fun _ => []) value = [] := by
  cases value with
  | array items =>
    rw [through, List.flatMap_eq_nil_iff]
    intro item _
    cases item <;> rfl
  | _ => rfl

theorem through_congr {find other : Document → List Value} {value : Value} (hvalue : value.WellKeyed)
    (h : ∀ sub : Document, sub.WellKeyed → find sub = other sub) :
    through find value = through other value := by
  cases value with
  | document sub => exact h sub hvalue
  | array items =>
    refine List.flatMap_congr fun item hitem => ?_
    cases item with
    | document sub => exact h sub (Value.wellKeyed_array_iff.1 hvalue _ hitem)
    | _ => rfl
  | _ => rfl

theorem candidates_cons_of_get {doc : Document} {key : String} {value : Value} {rest : Path}
    (h : doc.get? key = some value) : candidates doc (key :: rest) = below value rest := by
  rw [candidates_cons, h]

theorem candidates_cons_of_none {doc : Document} {key : String} {rest : Path}
    (h : doc.get? key = none) : candidates doc (key :: rest) = [] := by
  rw [candidates_cons, h]

/-- What is found at a path depends on the field of its first key. -/
theorem candidates_congr {doc other : Document} {key : String} (rest : Path)
    (h : doc.get? key = other.get? key) :
    candidates doc (key :: rest) = candidates other (key :: rest) := by
  rw [candidates_cons, candidates_cons, h]

/-! ### Going on behind a path -/

theorem exists_document_of_mem_below {value found : Value} {path rest : Path} (hrest : rest ≠ [])
    (ih : ∀ sub : Document, found ∈ candidates sub (path ++ rest) →
      path ≠ [] → ∃ doc, .document doc ∈ candidates sub path ∧ found ∈ candidates doc rest)
    (h : found ∈ below value (path ++ rest)) :
    ∃ doc, .document doc ∈ below value path ∧ found ∈ candidates doc rest := by
  obtain ⟨key, tail, hpath⟩ := List.exists_cons_of_ne_nil (List.append_ne_nil_of_right_ne_nil path hrest)
  rw [hpath] at h
  cases value with
  | document sub =>
    rw [below, ← hpath] at h
    cases path with
    | nil => exact ⟨sub, by simp [below], h⟩
    | cons first more => exact ih sub h (by simp)
  | array items =>
    rw [below, List.mem_flatMap] at h
    obtain ⟨item, hitem, h⟩ := h
    cases item with
    | document sub =>
      rw [← hpath] at h
      cases path with
      | nil => exact ⟨sub, by simp [below, hitem], h⟩
      | cons first more =>
        obtain ⟨doc, hdoc, hfound⟩ := ih sub h (by simp)
        exact ⟨doc, List.mem_flatMap.2 ⟨_, hitem, hdoc⟩, hfound⟩
    | _ => simp at h
  | _ => simp [below] at h

/-- What is found behind a path is found in a document at the path. -/
theorem exists_document_of_mem_candidates {doc : Document} {found : Value} {path rest : Path}
    (hpath : path ≠ []) (hrest : rest ≠ []) (h : found ∈ candidates doc (path ++ rest)) :
    ∃ sub, .document sub ∈ candidates doc path ∧ found ∈ candidates sub rest := by
  induction path generalizing doc with
  | nil => exact absurd rfl hpath
  | cons key path ih =>
    rw [List.cons_append, candidates_cons] at h
    cases hget : doc.get? key with
    | none => simp [hget] at h
    | some value =>
      rw [hget] at h
      rw [candidates_cons_of_get hget]
      exact exists_document_of_mem_below hrest (fun sub h hne => ih hne h) h

/-- If nothing is found at a path, nothing is found behind it. -/
theorem candidates_append_eq_nil {doc : Document} {path : Path} (h : candidates doc path = [])
    (hpath : path ≠ []) (rest : Path) : candidates doc (path ++ rest) = [] := by
  cases rest with
  | nil => rw [List.append_nil, h]
  | cons key rest =>
    rw [List.eq_nil_iff_forall_not_mem]
    intro found hfound
    obtain ⟨sub, hsub, _⟩ := exists_document_of_mem_candidates hpath (by simp) hfound
    rw [h] at hsub
    cases hsub

/-! ### Arrays at a path -/

theorem mem_below_of_mem_array {value item : Value} {items : List Value} {path : Path}
    (ih : ∀ sub : Document, .array items ∈ candidates sub path →
      item ∈ candidates sub path ∨ ∃ outer, .array outer ∈ candidates sub path ∧ .array items ∈ outer)
    (h : .array items ∈ below value path) (hitem : item ∈ items) :
    item ∈ below value path ∨ ∃ outer, .array outer ∈ below value path ∧ .array items ∈ outer := by
  cases path with
  | nil =>
    cases value with
    | array others =>
      rw [below, List.mem_cons] at h
      rcases h with h | h
      · obtain rfl := Value.array.inj h
        exact .inl (List.mem_cons_of_mem _ hitem)
      · exact .inr ⟨others, List.mem_cons_self, h⟩
    | _ => simp [below] at h
  | cons key rest =>
    cases value with
    | document sub => exact ih sub h
    | array others =>
      rw [below, List.mem_flatMap] at h
      obtain ⟨other, hother, h⟩ := h
      cases other with
      | document sub =>
        rcases ih sub h with hfound | ⟨outer, houter, hmem⟩
        · exact .inl (List.mem_flatMap.2 ⟨_, hother, hfound⟩)
        · exact .inr ⟨outer, List.mem_flatMap.2 ⟨_, hother, houter⟩, hmem⟩
      | _ => simp at h
    | _ => simp [below] at h

/-- The items of an array that is found at a path are found there, too, unless the array is itself the
item of an array. -/
theorem mem_candidates_of_mem_array {doc : Document} {item : Value} {items : List Value} {path : Path}
    (h : .array items ∈ candidates doc path) (hitem : item ∈ items) :
    item ∈ candidates doc path ∨ ∃ outer, .array outer ∈ candidates doc path ∧ .array items ∈ outer := by
  induction path generalizing doc with
  | nil => simp [candidates] at h
  | cons key path ih =>
    cases hget : doc.get? key with
    | none => simp [candidates_cons_of_none hget] at h
    | some value =>
      rw [candidates_cons_of_get hget] at h ⊢
      exact mem_below_of_mem_array (fun sub => ih) h hitem

/-! ### Changing the fields at a path -/

section Update

variable (f : Value → Option Value)

theorem get?_put_self (doc : Document) (key : String) (value : Value) :
    (doc.put key value).get? key = some value := Keyed.lookup_adjust_self key _ doc

theorem get?_put_of_ne {key other : String} (h : other ≠ key) (doc : Document) (value : Value) :
    (doc.put key value).get? other = doc.get? other := Keyed.lookup_adjust_of_ne h _ doc

theorem get?_erase_of_ne {key other : String} (h : other ≠ key) (doc : Document) :
    (doc.erase key).get? other = doc.get? other := Keyed.lookup_erase_of_ne h doc

/-- The other fields of a document stay as they are. -/
theorem get?_update_of_ne {key other : String} (h : other ≠ key) (doc : Document) (rest : Path) :
    (update f doc (key :: rest)).get? other = doc.get? other := by
  cases rest with
  | nil =>
    rw [update]
    split
    · rfl
    · split
      · exact get?_put_of_ne h doc _
      · exact get?_erase_of_ne h doc
  | cons next rest =>
    rw [update]
    · split
      · exact get?_put_of_ne h doc _
      · exact get?_put_of_ne h doc _
      · rfl
    · simp

/-- What is put under the first key of a longer path. -/
def updateBelow (path : Path) : Value → Value
  | .document sub => .document (update f sub path)
  | .array items => .array (items.map fun
      | .document sub => .document (update f sub path)
      | value => value)
  | value => value

theorem get?_update_self (doc : Document) (key next : String) (rest : Path) :
    (update f doc (key :: next :: rest)).get? key =
      (doc.get? key).map (updateBelow f (next :: rest)) := by
  rw [update]
  · split
    · next sub h => rw [get?_put_self, h]; rfl
    · next items h => rw [get?_put_self, h]; rfl
    · next hdoc harray =>
      cases hget : doc.get? key with
      | none => rfl
      | some value =>
        cases value with
        | document sub => exact absurd hget (hdoc sub)
        | array items => exact absurd hget (harray items)
        | _ => rfl
  · simp

theorem below_updateBelow {path : Path} {key : String} {rest : Path}
    (h : ∀ sub : Document, candidates (update f sub path) (key :: rest) = candidates sub (key :: rest))
    (value : Value) : below (updateBelow f path value) (key :: rest) = below value (key :: rest) := by
  cases value with
  | document sub => exact h sub
  | array items =>
    simp only [updateBelow, below, List.flatMap_map]
    congr 1
    funext item
    cases item with
    | document sub => exact h sub
    | _ => rfl
  | _ => rfl

/-- Changing the fields at one path leaves alone what is apart from it. -/
theorem candidates_update_of_apart {path other : Path} (h : Apart path other) (doc : Document) :
    candidates (update f doc path) other = candidates doc other := by
  induction path generalizing doc other with
  | nil => exact absurd h (not_apart_nil other)
  | cons key path ih =>
    obtain ⟨first, rest, rfl⟩ := List.exists_cons_of_ne_nil h.symm.ne_nil
    by_cases hkey : first = key
    · subst hkey
      have hrest := apart_cons_iff.1 h
      obtain ⟨next, path, rfl⟩ := List.exists_cons_of_ne_nil hrest.ne_nil
      obtain ⟨second, rest, rfl⟩ := List.exists_cons_of_ne_nil hrest.symm.ne_nil
      rw [candidates_cons, candidates_cons, get?_update_self]
      cases doc.get? first with
      | none => rfl
      | some value => exact below_updateBelow f (fun sub => ih hrest sub) value
    · exact candidates_congr rest (get?_update_of_ne f hkey doc path)

/-- At the path itself there are only changed values afterwards. -/
theorem mem_candidates_update {path : Path} {doc : Document} {found : Value} (hdoc : doc.WellKeyed)
    (h : found ∈ candidates (update f doc path) path) :
    ∃ value new, f value = some new ∧ found ∈ below new [] := by
  induction path generalizing doc with
  | nil => simp [candidates] at h
  | cons key path ih =>
    cases path with
    | nil =>
      rw [update] at h
      split at h
      · next hget => simp [candidates_cons_of_none hget] at h
      · next value hget =>
        split at h
        · next new hnew =>
          rw [candidates_cons_of_get (get?_put_self doc key new)] at h
          exact ⟨value, new, hnew, h⟩
        · simp [candidates_cons_of_none (hdoc.get?_erase key)] at h
    | cons next path =>
      rw [candidates_cons, get?_update_self] at h
      cases hget : doc.get? key with
      | none => simp [hget] at h
      | some value =>
        have hvalue := hdoc.get hget
        rw [hget] at h
        cases value with
        | document sub => exact ih hvalue h
        | array items =>
          simp only [Option.map_some, updateBelow, below, List.flatMap_map, List.mem_flatMap] at h
          obtain ⟨item, hitem, h⟩ := h
          cases item with
          | document sub => exact ih (Value.wellKeyed_array_iff.1 hvalue _ hitem) h
          | _ => simp at h
        | _ => simp [updateBelow, below] at h

end Update

end DocQuery.Path
