import DocQuery.Proofs.Path.Commuting
import DocQuery.Proofs.Path.Replaced

/-!
# Laws of paths

What is set at a path is found there, and setting what is found changes nothing; what is removed is
gone, behind arrays, too.  Nothing of this concerns a path that is apart, and two changes at paths that
are apart can be made in either order (`Path.access_laws`).
-/

namespace DocQuery.Path

variable {doc : Document} {path other : Path} {value : Value}

/-! ### Setting a value -/

theorem set_cons_cons (doc : Document) (key next : String) (rest : Path) (value : Value) :
    set doc (key :: next :: rest) value =
      doc.put key (.document (set
        (match doc.get? key with
        | some (.document sub) => sub
        | _ => []) (next :: rest) value)) :=
  set.eq_3 _ _ _ _ (List.cons_ne_nil next rest)

/-- Setting a value makes documents on the way, but none of what they stand for was found before. -/
theorem get_set_of_apart (h : Apart path other) (doc : Document) (value : Value) :
    get (set doc path value) other = get doc other := by
  induction path generalizing doc other with
  | nil => exact absurd h (not_apart_nil other)
  | cons key path ih =>
    obtain ⟨first, other, rfl⟩ := List.exists_cons_of_ne_nil h.symm.ne_nil
    by_cases hkey : first = key
    · subst hkey
      have hapart := apart_cons_iff.1 h
      obtain ⟨next, path, rfl⟩ := List.exists_cons_of_ne_nil hapart.ne_nil
      obtain ⟨second, other, rfl⟩ := List.exists_cons_of_ne_nil hapart.symm.ne_nil
      rw [set_cons_cons, get_cons, get?_put_self, Option.bind_some, inside, ih hapart, get_cons doc]
      have hempty : get [] (second :: other) = none := by rw [get_cons]; rfl
      cases doc.get? first with
      | none => exact hempty
      | some found =>
        cases found with
        | document sub => rfl
        | _ => exact hempty
    · refine get_congr other ?_
      cases path with
      | nil => exact get?_put_of_ne hkey doc value
      | cons next path =>
        rw [set_cons_cons]
        exact get?_put_of_ne hkey doc _

/-- Setting the value that is at a path changes nothing. -/
theorem set_of_get (h : get doc path = some value) : set doc path value = doc := by
  induction path generalizing doc with
  | nil => rfl
  | cons key path ih =>
    rw [get_cons, Option.bind_eq_some_iff] at h
    obtain ⟨found, hfound, h⟩ := h
    cases path with
    | nil =>
      obtain rfl : found = value := Option.some.inj h
      exact Keyed.put_of_lookup hfound
    | cons next rest =>
      cases found with
      | document sub =>
        rw [set_cons_cons, hfound]
        dsimp only
        rw [ih h]
        exact Keyed.put_of_lookup hfound
      | _ => cases h

/-! ### Removing fields -/

/-- What is removed is gone, on every way that leads there. -/
theorem candidates_remove_self (hdoc : doc.WellKeyed) (path : Path) :
    candidates (remove doc path) path = [] := by
  rw [List.eq_nil_iff_forall_not_mem]
  intro found hfound
  obtain ⟨_, _, hnew, -⟩ := mem_candidates_update _ hdoc hfound
  cases hnew

/-! ### All laws -/

/-- **The laws of paths.**  A value that is set at a path is the value there, and setting the value that
is there gives back the document.  In a document whose keys are distinct, as all stored ones are, nothing
is found at a path after it is removed.  At a path that is apart the same is found after setting a value
or removing the fields here, and changes of both kinds, here and there, can be made in either order. -/
theorem access_laws (p q : String) (doc : Document) :
    (∀ value, get (set doc (ofText p) value) (ofText p) = some value) ∧
    (∀ value, get doc (ofText p) = some value → set doc (ofText p) value = doc) ∧
    (doc.WellKeyed → candidates (remove doc (ofText p)) (ofText p) = []) ∧
    (Apart (ofText p) (ofText q) →
      (∀ value, get (set doc (ofText p) value) (ofText q) = get doc (ofText q)) ∧
      candidates (remove doc (ofText p)) (ofText q) = candidates doc (ofText q) ∧
      ∀ f g : Value → Option Value,
        update f (update g doc (ofText q)) (ofText p) = update g (update f doc (ofText p)) (ofText q)) :=
  ⟨get_set_self (ofText_ne_nil p) doc, fun _ => set_of_get, fun hdoc => candidates_remove_self hdoc _,
    fun hapart => ⟨get_set_of_apart hapart doc, candidates_update_of_apart _ hapart doc,
      fun _ _ => update_comm hapart doc⟩⟩

/-! ### A shop with items -/

namespace ItemsOfShop

def shop : Document :=
  [("_id", .boolean true), ("home", .document [("city", .string "Rome")]),
    ("items", .array [.document [("name", .string "pen"), ("price", .string "2")],
      .document [("name", .string "cup")], .string "note"])]

theorem wellKeyed_shop : shop.WellKeyed := by
  simp [shop, Document.WellKeyed, Value.WellKeyed, Value.WellKeyedFields, Value.WellKeyedItems,
    Keyed.Distinct, Keyed.keys]

/-- A city is set under an item, a price is removed from each item, and the home stays what it was. -/
theorem prices_removed_home_kept :
    shop.WellKeyed ∧ Apart (ofText "items.price") (ofText "home.city") ∧
      get shop (ofText "home.city") = some (.string "Rome") ∧
      set shop (ofText "home.city") (.string "Rome") = shop ∧
      candidates shop (ofText "items.price") = [.string "2"] ∧
      candidates (remove shop (ofText "items.price")) (ofText "items.price") = [] ∧
      candidates (remove shop (ofText "items.price")) (ofText "home.city") = [.string "Rome"] ∧
      get (set shop (ofText "items.price") .null) (ofText "items.price") = some .null ∧
      get (set shop (ofText "items.price") .null) (ofText "home.city") = some (.string "Rome") ∧
      update (fun _ => some .null) (remove shop (ofText "home.city")) (ofText "items.price") =
        remove (update (fun _ => some .null) shop (ofText "items.price")) (ofText "home.city") := by
  have hprice : ofText "items.price" = ["items", "price"] := by decide
  have hcity : ofText "home.city" = ["home", "city"] := by decide
  have hapart : Apart (ofText "items.price") (ofText "home.city") := by
    rw [hprice, hcity]
    exact apart_cons_of_ne (by decide)
  have hget : get shop (ofText "home.city") = some (.string "Rome") := by rw [hcity]; rfl
  obtain ⟨hset, -, hremoved, hlaws⟩ := access_laws "items.price" "home.city" shop
  obtain ⟨hsetthere, hremovethere, hupdates⟩ := hlaws hapart
  obtain ⟨-, hback, -⟩ := access_laws "home.city" "items.price" shop
  refine ⟨wellKeyed_shop, hapart, hget, hback _ hget, by rw [hprice]; rfl, hremoved wellKeyed_shop, ?_,
    hset .null, (hsetthere .null).trans hget, hupdates (fun _ => some .null) fun _ => none⟩
  rw [hremovethere, hcity]
  rfl

end ItemsOfShop

end DocQuery.Path
