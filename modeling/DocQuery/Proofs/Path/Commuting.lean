import DocQuery.Proofs.Path.Filled
import Mathlib.Data.List.Pairwise

/-!
# Changes at different paths

Changing the fields at one path and then those at another one is the same the other way round if the
paths are apart (`Path.update_comm`).  In each document on the way only the field of the first key
changes, as if the path ended there (`Path.update_cons`), so different first keys do not meet
(`Path.update_key_comm`), and behind the same key the rests of the paths are apart.  So with paths that
are all apart the changes can be made in any order (`Path.updateAll_perm`).
-/

namespace DocQuery.Path

variable {f g : Value → Option Value}

/-! ### Different keys -/

/-- The first field of a key is changed, and the others stay. -/
theorem update_key_cons (key name : String) (value : Value) (rest : Document) :
    update f ((name, value) :: rest) [key] =
      if name = key then
        match f value with
        | some new => (key, new) :: rest
        | none => rest
      else (name, value) :: update f rest [key] := by
  rw [update, Document.get?, List.lookup_cons]
  by_cases hkey : name = key
  · subst hkey
    rw [beq_self_eq_true, if_pos rfl]
    dsimp only
    cases f value <;> simp [Document.put, Document.erase, Keyed.put, Keyed.adjust, Keyed.erase]
  · have hbeq : (key == name) = false := by simpa using Ne.symm hkey
    rw [hbeq, if_neg hkey, update, Document.get?]
    cases List.lookup key rest with
    | none => rfl
    | some found =>
      dsimp only
      cases f found <;> simp [Document.put, Document.erase, Keyed.put, Keyed.adjust, Keyed.erase, hkey]

theorem update_key_comm {key other : String} (h : key ≠ other) (doc : Document) :
    update f (update g doc [other]) [key] = update g (update f doc [key]) [other] := by
  induction doc with
  | nil => rfl
  | cons field rest ih =>
    obtain ⟨name, value⟩ := field
    by_cases hkey : name = key
    · subst hkey
      rw [update_key_cons, if_neg h, update_key_cons, update_key_cons, if_pos rfl, if_pos rfl]
      cases f value with
      | none => rfl
      | some new =>
        dsimp only
        rw [update_key_cons, if_neg h]
    · by_cases hother : name = other
      · subst hother
        rw [update_key_cons name, if_pos rfl, update_key_cons key, if_neg hkey, update_key_cons name,
          if_pos rfl]
        cases g value with
        | none => rfl
        | some new =>
          dsimp only
          rw [update_key_cons, if_neg hkey]
      · rw [update_key_cons other, if_neg hother, update_key_cons key, if_neg hkey, ih,
          update_key_cons key, if_neg hkey, update_key_cons other, if_neg hother]

theorem update_key_update_key (change next : Value → Value) (key : String) (doc : Document) :
    update (fun value => some (next value)) (update (fun value => some (change value)) doc [key]) [key] =
      update (fun value => some (next (change value))) doc [key] := by
  induction doc with
  | nil => rfl
  | cons field rest ih =>
    obtain ⟨name, value⟩ := field
    by_cases hkey : name = key
    · subst hkey
      simp only [update_key_cons, if_true]
    · simp only [update_key_cons, if_neg hkey, ih]

/-! ### Longer paths -/

/-- What becomes of the field of the first key of a path. -/
def changeBehind (f : Value → Option Value) : Path → Value → Option Value
  | [] => f
  | next :: rest => fun value => some (updateBelow f (next :: rest) value)

/-- A path changes a document in the field of its first key only. -/
theorem update_cons (f : Value → Option Value) (doc : Document) (key : String) (rest : Path) :
    update f doc (key :: rest) = update (changeBehind f rest) doc [key] := by
  cases rest with
  | nil => rfl
  | cons next rest =>
    rw [update_cons_cons, update]
    cases doc.get? key <;> rfl

theorem updateBelow_comm {path other : Path}
    (h : ∀ sub : Document, update f (update g sub other) path = update g (update f sub path) other)
    (value : Value) :
    updateBelow f path (updateBelow g other value) = updateBelow g other (updateBelow f path value) := by
  cases value with
  | document sub => exact congrArg Value.document (h sub)
  | array items =>
    simp only [updateBelow, List.map_map]
    refine congrArg Value.array (List.map_congr_left fun item _ => ?_)
    cases item with
    | document sub => exact congrArg Value.document (h sub)
    | _ => rfl
  | _ => rfl

/-- Changes at paths that are apart do not depend on their order. -/
theorem update_comm {path other : Path} (h : Apart path other) (doc : Document) :
    update f (update g doc other) path = update g (update f doc path) other := by
  induction path generalizing doc other with
  | nil => exact absurd h (not_apart_nil other)
  | cons key path ih =>
    obtain ⟨first, rest, rfl⟩ := List.exists_cons_of_ne_nil h.symm.ne_nil
    have hf : ∀ doc, update f doc (key :: path) = update (changeBehind f path) doc [key] :=
      fun doc => update_cons f doc key path
    have hg : ∀ doc, update g doc (first :: rest) = update (changeBehind g rest) doc [first] :=
      fun doc => update_cons g doc first rest
    rw [hf, hg, hf, hg]
    by_cases hkey : key = first
    · subst hkey
      have hrest := apart_cons_iff.1 h
      obtain ⟨next, path, rfl⟩ := List.exists_cons_of_ne_nil hrest.ne_nil
      obtain ⟨second, rest, rfl⟩ := List.exists_cons_of_ne_nil hrest.symm.ne_nil
      -- neither path ends here, so both keep the field, and what it holds changes in either order
      have hbelow := updateBelow_comm fun sub => ih hrest sub
      simp only [changeBehind, update_key_update_key, hbelow]
    · exact update_key_comm hkey doc

/-! ### Several paths -/

/-- The changes at paths that are apart can be made in any order. -/
theorem updateAll_perm {fills others : List (Path × (Value → Option Value))} (h : fills.Perm others)
    (hapart : AllApart fills) (doc : Document) : updateAll fills doc = updateAll others doc := by
  have hsymm : Std.Symm fun fill other : Path × (Value → Option Value) => Apart fill.1 other.1 :=
    ⟨fun _ _ => Apart.symm⟩
  refine h.foldl_eq' (fun fill hfill other hother doc => ?_) doc
  by_cases hsame : fill = other
  · rw [hsame]
  · exact update_comm (hapart.forall hother hfill (Ne.symm hsame)) doc

end DocQuery.Path
