import DocQuery.Proofs.Path.Candidates

/-!
# Filling in fields in one pass

`Path.updateAll` changes the fields at several paths, one path after the other.  If the paths are
apart, this is what one pass over the document does (`Path.updateAll_eq_filled`): `filledFields` goes
through the fields in their order, changes or drops those at one of the paths, and rebuilds everything
else as it was.  So there is no other change, in no key, in no order, and in no length of an array.
-/

namespace DocQuery

/-- What becomes of the fields at each path; the others stay. -/
abbrev Filling := Path → Option (Value → Option Value)

/-! ### One pass -/

namespace Value

mutual

/-- A value whose fields are filled in; `place` is the path at which it stands. -/
def filled (fill : Filling) (place : Path) : Value → Value
  | .document fields => .document (filledFields fill place fields)
  | .array items => .array (filledItems fill place items)
  | value => value

/-- Fields below a path, each one changed, dropped or gone into. -/
def filledFields (fill : Filling) (place : Path) : List (String × Value) → List (String × Value)
  | [] => []
  | (key, value) :: rest =>
    match fill (place ++ [key]) with
    | some change =>
      match change value with
      | some new => (key, new) :: filledFields fill place rest
      | none => filledFields fill place rest
    | none => (key, value.filled fill (place ++ [key])) :: filledFields fill place rest

/-- The documents in an array stand where the array stands. -/
def filledItems (fill : Filling) (place : Path) : List Value → List Value
  | [] => []
  | .document fields :: rest =>
    .document (filledFields fill place fields) :: filledItems fill place rest
  | value :: rest => value :: filledItems fill place rest

end

variable {fill other : Filling}

mutual

/-- Where nothing is filled in, a value stays as it is. -/
theorem filled_of_none {place : Path} (h : ∀ path, fill (place ++ path) = none) (value : Value) :
    value.filled fill place = value := by
  cases value with
  | document fields => rw [filled, filledFields_of_none h fields]
  | array items => rw [filled, filledItems_of_none h items]
  | _ => rfl

theorem filledFields_of_none {place : Path} (h : ∀ path, fill (place ++ path) = none)
    (fields : List (String × Value)) : filledFields fill place fields = fields := by
  cases fields with
  | nil => rfl
  | cons field rest =>
    obtain ⟨key, value⟩ := field
    have hbelow : ∀ path, fill (place ++ [key] ++ path) = none := by
      intro path
      rw [List.append_assoc]
      exact h _
    rw [filledFields, h, filledFields_of_none h rest]
    dsimp only
    rw [filled_of_none hbelow value]

theorem filledItems_of_none {place : Path} (h : ∀ path, fill (place ++ path) = none)
    (items : List Value) : filledItems fill place items = items := by
  cases items with
  | nil => rfl
  | cons item rest =>
    cases item with
    | document fields => rw [filledItems, filledFields_of_none h fields, filledItems_of_none h rest]
    | _ => rw [filledItems, filledItems_of_none h rest]; simp

end

/-- Where one of two fillings fills something in, the other one does not, nor behind it. -/
structure Disjoint (fill other : Filling) : Prop where
  left : ∀ path, fill path ≠ none → ∀ rest, other (path ++ rest) = none
  right : ∀ path, other path ≠ none → ∀ rest, fill (path ++ rest) = none

mutual

/-- Two passes that do not touch each other's fields are one. -/
theorem filled_filled (h : Disjoint fill other) (place : Path) (value : Value) :
    (value.filled fill place).filled other place =
      value.filled (fun path => (fill path).or (other path)) place := by
  cases value with
  | document fields => rw [filled, filled, filled, filledFields_filledFields h place fields]
  | array items => rw [filled, filled, filled, filledItems_filledItems h place items]
  | _ => rfl

theorem filledFields_filledFields (h : Disjoint fill other) (place : Path)
    (fields : List (String × Value)) :
    filledFields other place (filledFields fill place fields) =
      filledFields (fun path => (fill path).or (other path)) place fields := by
  cases fields with
  | nil => rfl
  | cons field rest =>
    obtain ⟨key, value⟩ := field
    have ih := filledFields_filledFields h place rest
    cases hfill : fill (place ++ [key]) with
    | some change =>
      have hnone := h.left (place ++ [key]) (by simp [hfill])
      have hself : other (place ++ [key]) = none := by simpa using hnone []
      simp only [filledFields, hfill, Option.some_or]
      cases change value with
      | none => exact ih
      | some new =>
        simp only [filledFields, hself, filled_of_none hnone, ih]
    | none =>
      simp only [filledFields, hfill, Option.none_or]
      cases hother : other (place ++ [key]) with
      | none =>
        dsimp only
        rw [filled_filled h, ih]
      | some change =>
        rw [filled_of_none (h.right (place ++ [key]) (by simp [hother])) value]
        cases change value <;> simp only [ih]

theorem filledItems_filledItems (h : Disjoint fill other) (place : Path) (items : List Value) :
    filledItems other place (filledItems fill place items) =
      filledItems (fun path => (fill path).or (other path)) place items := by
  cases items with
  | nil => rfl
  | cons item rest =>
    cases item with
    | document fields =>
      rw [filledItems, filledItems, filledItems, filledFields_filledFields h place fields,
        filledItems_filledItems h place rest]
    | _ => simp only [filledItems, filledItems_filledItems h place rest]

end

/-! ### The pass, field by field -/

/-- What becomes of the value of a field that stands at a path. -/
def filledAt (fill : Filling) (path : Path) (value : Value) : Option Value :=
  match fill path with
  | some change => change value
  | none => some (value.filled fill path)

theorem filledFields_eq_filterMap (fill : Filling) (place : Path) (fields : List (String × Value)) :
    filledFields fill place fields = fields.filterMap fun field =>
      (filledAt fill (place ++ [field.1]) field.2).map fun new => (field.1, new) := by
  induction fields with
  | nil => rfl
  | cons field rest ih =>
    obtain ⟨key, value⟩ := field
    rw [filledFields, List.filterMap_cons, ih, filledAt]
    cases fill (place ++ [key]) with
    | none => rfl
    | some change => dsimp only; cases change value <;> rfl

theorem filledItems_eq_map (fill : Filling) (place : Path) (items : List Value) :
    filledItems fill place items = items.map fun
      | .document fields => .document (filledFields fill place fields)
      | value => value := by
  induction items with
  | nil => rfl
  | cons item rest ih => cases item <;> rw [filledItems, ih] <;> simp

/-- If something is filled in behind one key only, only its field changes. -/
theorem filledFields_of_key {place : Path} {key : String} {doc : Document}
    (hdoc : Keyed.Distinct doc)
    (h : ∀ other, other ≠ key → ∀ rest, fill (place ++ [other] ++ rest) = none) :
    filledFields fill place doc =
      match doc.get? key with
      | none => doc
      | some value =>
        match filledAt fill (place ++ [key]) value with
        | some new => doc.put key new
        | none => doc.erase key := by
  have hfields : ∀ field ∈ doc,
      (filledAt fill (place ++ [field.1]) field.2).map (fun new => (field.1, new)) =
        if field.1 = key then
          (filledAt fill (place ++ [key]) field.2).map fun new => (field.1, new)
        else some field := by
    intro field _
    split
    · next hkey => rw [hkey]
    · next hkey =>
      have hnone := h field.1 hkey
      have hself : fill (place ++ [field.1]) = none := by simpa using hnone []
      rw [filledAt, hself]
      dsimp only
      rw [filled_of_none hnone]
      rfl
  rw [filledFields_eq_filterMap, List.filterMap_congr hfields,
    Keyed.filterMap_change hdoc key (filledAt fill (place ++ [key])), ← Document.get?]
  cases doc.get? key with
  | none => rfl
  | some value =>
    dsimp only
    cases filledAt fill (place ++ [key]) value <;> rfl

end Value

/-! ### One path -/

namespace Path

open Value

variable {f g : Value → Option Value}

theorem update_cons_cons (doc : Document) (key next : String) (rest : Path) :
    update f doc (key :: next :: rest) =
      match doc.get? key with
      | none => doc
      | some value => doc.put key (updateBelow f (next :: rest) value) := by
  rw [update]
  · cases hget : doc.get? key with
    | none => rfl
    | some value =>
      cases value with
      | document sub => rfl
      | array items => rfl
      | _ => exact (Keyed.put_of_lookup hget).symm
  · simp

/-- What becomes of the fields at one path. -/
def onlyAt (path : Path) (f : Value → Option Value) : Filling :=
  fun other => if other = path then some f else none

theorem onlyAt_of_ne {path other : Path} (h : other ≠ path) : onlyAt path f other = none := if_neg h

/-- Filling in what stands in a value is an update below it, if it is one in each of its documents. -/
theorem filled_eq_updateBelow {place path : Path} {value : Value} (hvalue : value.WellKeyed)
    (h : ∀ sub : Document, sub.WellKeyed → update f sub path = filledFields fill place sub) :
    value.filled fill place = updateBelow f path value := by
  cases value with
  | document sub => rw [filled, updateBelow, h sub hvalue]
  | array items =>
    rw [filled, filledItems_eq_map, updateBelow]
    refine congrArg Value.array (List.map_congr_left ?_)
    intro item hitem
    cases item with
    | document sub =>
      have hsub := Value.wellKeyed_array_iff.1 hvalue _ hitem
      exact congrArg Value.document (h sub hsub).symm
    | _ => rfl
  | _ => rfl

/-- Changing the fields at one path is one pass. -/
theorem update_eq_filled {doc : Document} (hdoc : doc.WellKeyed) (place : Path) {path : Path}
    (hpath : path ≠ []) :
    update f doc path = filledFields (onlyAt (place ++ path) f) place doc := by
  induction path generalizing doc place with
  | nil => exact absurd rfl hpath
  | cons key path ih =>
    obtain ⟨hdistinct, hvalues⟩ := Document.wellKeyed_iff.1 hdoc
    have hother : ∀ other, other ≠ key → ∀ rest,
        onlyAt (place ++ key :: path) f (place ++ [other] ++ rest) = none := by
      intro other hne rest
      refine onlyAt_of_ne ?_
      simp [hne]
    rw [filledFields_of_key hdistinct hother]
    cases path with
    | nil =>
      rw [update]
      cases doc.get? key with
      | none => rfl
      | some value =>
        have hat : filledAt (onlyAt (place ++ [key]) f) (place ++ [key]) value = f value := by
          rw [filledAt, onlyAt, if_pos rfl]
        dsimp only
        rewrite [hat]
        cases f value <;> rfl
    | cons next rest =>
      have hassoc : place ++ key :: next :: rest = place ++ [key] ++ next :: rest := by simp
      have hbelow : ∀ sub : Document, sub.WellKeyed → update f sub (next :: rest) =
          filledFields (onlyAt (place ++ key :: next :: rest) f) (place ++ [key]) sub := by
        intro sub hsub
        rw [hassoc]
        exact ih hsub (place ++ [key]) (by simp)
      rw [update_cons_cons]
      cases hget : doc.get? key with
      | none => rfl
      | some value =>
        have hvalue := hdoc.get hget
        have hat : filledAt (onlyAt (place ++ key :: next :: rest) f) (place ++ [key]) value =
            some (updateBelow f (next :: rest) value) := by
          rw [filledAt, onlyAt_of_ne (by simp)]
          exact congrArg some (filled_eq_updateBelow hvalue hbelow)
        dsimp only
        rw [hat]

theorem updateBelow_congr {path : Path} (hpath : path ≠ [])
    (ih : ∀ sub : Document, (∀ value ∈ candidates sub path, f value = g value) →
      update f sub path = update g sub path) {value : Value}
    (h : ∀ found ∈ below value path, f found = g found) :
    updateBelow f path value = updateBelow g path value := by
  obtain ⟨next, rest, rfl⟩ := List.exists_cons_of_ne_nil hpath
  cases value with
  | document sub => exact congrArg Value.document (ih sub h)
  | array items =>
    refine congrArg Value.array (List.map_congr_left ?_)
    intro item hitem
    cases item with
    | document sub =>
      refine congrArg Value.document (ih sub ?_)
      exact fun found hfound => h found (List.mem_flatMap.2 ⟨_, hitem, hfound⟩)
    | _ => rfl
  | _ => rfl

/-- What is changed depends on the values that are found at the path. -/
theorem update_congr {path : Path} {doc : Document}
    (h : ∀ value ∈ candidates doc path, f value = g value) : update f doc path = update g doc path := by
  induction path generalizing doc with
  | nil => rfl
  | cons key path ih =>
    cases hget : doc.get? key with
    | none => cases path <;> simp [update, hget]
    | some value =>
      rw [candidates_cons_of_get hget] at h
      cases path with
      | nil =>
        have hself : value ∈ below value [] := by cases value <;> simp [below]
        simp only [update, hget, h value hself]
      | cons next rest =>
        rw [update_cons_cons, update_cons_cons, hget]
        exact congrArg (doc.put key) (updateBelow_congr (by simp) (fun _ => ih) h)

/-- Nothing changes if every value stays. -/
theorem update_some (doc : Document) (path : Path) : update some doc path = doc := by
  induction path generalizing doc with
  | nil => rfl
  | cons key path ih =>
    cases hget : doc.get? key with
    | none => cases path <;> simp [update, hget]
    | some value =>
      cases path with
      | nil =>
        simp only [update, hget]
        exact Keyed.put_of_lookup hget
      | cons next rest =>
        have hvalue : updateBelow some (next :: rest) value = value := by
          cases value with
          | document sub => exact congrArg Value.document (ih sub)
          | array items =>
            refine congrArg Value.array (List.map_id'' ?_ items)
            intro item
            cases item with
            | document sub => exact congrArg Value.document (ih sub)
            | _ => rfl
          | _ => rfl
        rw [update_cons_cons, hget]
        dsimp only
        rw [hvalue]
        exact Keyed.put_of_lookup hget

/-! ### Several paths -/

/-- The fields at several paths changed, one path after the other. -/
def updateAll (fills : List (Path × (Value → Option Value))) (doc : Document) : Document :=
  fills.foldl (fun doc (path, f) => update f doc path) doc

variable {fills : List (Path × (Value → Option Value))}

theorem updateAll_cons (path : Path) (doc : Document) :
    updateAll ((path, f) :: fills) doc = updateAll fills (update f doc path) := rfl

/-- The paths of a list are apart from each other. -/
def AllApart (fills : List (Path × (Value → Option Value))) : Prop :=
  fills.Pairwise fun fill other => Apart fill.1 other.1

theorem disjoint_onlyAt {path : Path} (h : ∀ fill ∈ fills, Apart path fill.1) :
    Disjoint (onlyAt path f) fun path => fills.lookup path where
  left other hother rest := by
    obtain rfl : other = path := by
      by_contra hne
      exact hother (onlyAt_of_ne hne)
    rw [List.lookup_eq_none_iff]
    intro fill hfill
    have hne : other ++ rest ≠ fill.1 := fun e => (h fill hfill).1 (e ▸ List.prefix_append _ _)
    simpa using hne
  right other hother rest := by
    refine onlyAt_of_ne fun e => hother ?_
    rw [List.lookup_eq_none_iff]
    intro fill hfill
    have hne : other ≠ fill.1 := by
      rintro rfl
      exact (h fill hfill).2 (e ▸ List.prefix_append _ _)
    simpa using hne

/-- **Changing the fields at paths that are apart is one pass.** -/
theorem updateAll_eq_filled {doc : Document} (hdoc : doc.WellKeyed) (hapart : AllApart fills)
    (hne : ∀ fill ∈ fills, fill.1 ≠ [])
    (hkeyed : ∀ fill ∈ fills, ∀ value new, value.WellKeyed → fill.2 value = some new → new.WellKeyed) :
    updateAll fills doc = filledFields (fun path => fills.lookup path) [] doc := by
  induction fills generalizing doc with
  | nil => exact (filledFields_of_none (fun _ => rfl) doc).symm
  | cons fill rest ih =>
    obtain ⟨path, f⟩ := fill
    obtain ⟨hpath, hrest⟩ := List.pairwise_cons.1 hapart
    rw [List.forall_mem_cons] at hne hkeyed
    have hlookup : (fun other => (onlyAt path f other).or (rest.lookup other)) =
        fun other => ((path, f) :: rest).lookup other := by
      funext other
      rw [onlyAt, List.lookup_cons]
      by_cases hother : other = path
      · simp [hother]
      · have hbeq : (other == path) = false := by simpa using hother
        simp [hother, hbeq]
    rw [updateAll_cons, ih (wellKeyed_update path hkeyed.1 hdoc) hrest hne.2 hkeyed.2,
      update_eq_filled hdoc [] hne.1, List.nil_append,
      filledFields_filledFields (disjoint_onlyAt hpath), hlookup]

/-- What is changed depends on the values that are found at the paths. -/
theorem updateAll_congr {ι : Type} {xs : List ι} {path : ι → Path} {f g : ι → Value → Option Value}
    (hapart : xs.Pairwise fun x y => Apart (path x) (path y)) {doc : Document}
    (h : ∀ x ∈ xs, ∀ value ∈ candidates doc (path x), f x value = g x value) :
    updateAll (xs.map fun x => (path x, f x)) doc = updateAll (xs.map fun x => (path x, g x)) doc := by
  induction xs generalizing doc with
  | nil => rfl
  | cons x rest ih =>
    obtain ⟨hx, hrest⟩ := List.pairwise_cons.1 hapart
    rw [List.forall_mem_cons] at h
    rw [List.map_cons, List.map_cons, updateAll_cons, updateAll_cons, update_congr h.1]
    refine ih hrest ?_
    intro y hy value hvalue
    rw [candidates_update_of_apart _ (hx y hy)] at hvalue
    exact h.2 y hy value hvalue

/-- What is apart from all paths stays as it is. -/
theorem candidates_updateAll_of_apart {path : Path} (h : ∀ fill ∈ fills, Apart fill.1 path)
    (doc : Document) : candidates (updateAll fills doc) path = candidates doc path := by
  induction fills generalizing doc with
  | nil => rfl
  | cons fill rest ih =>
    rw [List.forall_mem_cons] at h
    rw [updateAll_cons, ih h.2, candidates_update_of_apart _ h.1]

/-- Where every value stays, the same values are found afterwards. -/
theorem candidates_updateAll_of_some {path : Path} (hapart : AllApart fills)
    (hmem : (path, some) ∈ fills) (doc : Document) :
    candidates (updateAll fills doc) path = candidates doc path := by
  induction fills generalizing doc with
  | nil => cases hmem
  | cons fill rest ih =>
    obtain ⟨hfill, hrest⟩ := List.pairwise_cons.1 hapart
    rw [updateAll_cons]
    rcases List.mem_cons.1 hmem with rfl | hmem
    · rw [update_some, candidates_updateAll_of_apart fun other hother => (hfill other hother).symm]
    · rw [ih hrest hmem, candidates_update_of_apart _ (hfill _ hmem)]

/-- Afterwards there are only changed values at each of the paths. -/
theorem mem_candidates_updateAll {path : Path} (hapart : AllApart fills) (hmem : (path, f) ∈ fills)
    {doc : Document} (hdoc : doc.WellKeyed)
    (hkeyed : ∀ fill ∈ fills, ∀ value new, value.WellKeyed → fill.2 value = some new → new.WellKeyed)
    {found : Value} (h : found ∈ candidates (updateAll fills doc) path) :
    ∃ value new, f value = some new ∧ found ∈ below new [] := by
  induction fills generalizing doc with
  | nil => cases hmem
  | cons fill rest ih =>
    obtain ⟨hfill, hrest⟩ := List.pairwise_cons.1 hapart
    rw [List.forall_mem_cons] at hkeyed
    rw [updateAll_cons] at h
    rcases List.mem_cons.1 hmem with rfl | hmem
    · rw [candidates_updateAll_of_apart fun other hother => (hfill other hother).symm] at h
      exact mem_candidates_update f hdoc h
    · exact ih hrest hmem (wellKeyed_update _ hkeyed.1 hdoc) hkeyed.2 h

end Path

end DocQuery
