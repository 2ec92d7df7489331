/-!
# Lists with keys

Documents, objects, selections and requests are lists of pairs whose keys are distinct and whose
order counts. `put` changes the pair of a key in place or adds one at the end, `adjust` does the
same with a value computed from the one that is there. Looking up a key is `List.lookup`.
-/

namespace DocQuery.Keyed

variable {α : Type}

/-- Computes the value of a key from the one that is there: in place, or as a new last pair. -/
def adjust (key : String) (f : Option α → α) : List (String × α) → List (String × α)
  | [] => [(key, f none)]
  | (k, v) :: rest => if k = key then (key, f (some v)) :: rest else (k, v) :: adjust key f rest

/-- Puts a value under a key: in place, or as a new last pair. -/
def put (key : String) (value : α) (pairs : List (String × α)) : List (String × α) :=
  adjust key (fun _ => value) pairs

/-- Pairs put one after the other behind those that are there. -/
def putAll (done pairs : List (String × α)) : List (String × α) :=
  pairs.foldl (fun done (key, value) => put key value done) done

/-- The list in which each key stands once: at its first place, with its last value. -/
def ofList (pairs : List (String × α)) : List (String × α) := putAll [] pairs

/-- The pairs without the first one of a key. -/
def erase (key : String) (pairs : List (String × α)) : List (String × α) :=
  pairs.eraseP fun pair => pair.1 == key

/-- The keys in their order. -/
def keys (pairs : List (String × α)) : List String := pairs.map Prod.fst

/-- No key stands twice. -/
def Distinct (pairs : List (String × α)) : Prop := (keys pairs).Nodup

/-- What a key holds after `adjust`. -/
theorem lookup_adjust_self (key : String) (f : Option α → α) (pairs : List (String × α)) :
    (adjust key f pairs).lookup key = some (f (pairs.lookup key)) := by
  induction pairs with
  | nil => simp [adjust]
  | cons pair rest ih =>
    obtain ⟨k, v⟩ := pair
    by_cases h : k = key
    · subst h; simp [adjust]
    · have h' : (key == k) = false := by simpa using fun e : key = k => h e.symm
      simp [adjust, h, List.lookup_cons, h', ih]

/-- The other keys hold what they held. -/
theorem lookup_adjust_of_ne {key other : String} (h : other ≠ key) (f : Option α → α)
    (pairs : List (String × α)) : (adjust key f pairs).lookup other = pairs.lookup other := by
  have hne : (other == key) = false := by simpa using h
  induction pairs with
  | nil => simp [adjust, List.lookup_cons, hne]
  | cons pair rest ih =>
    obtain ⟨k, v⟩ := pair
    by_cases hk : k = key
    · subst hk; simp [adjust, List.lookup_cons, hne]
    · simp [adjust, hk, List.lookup_cons, ih]

end DocQuery.Keyed
