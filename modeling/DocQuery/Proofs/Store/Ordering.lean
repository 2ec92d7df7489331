import DocQuery.Proofs.StableSort
import DocQuery.Proofs.Value.Order
import DocQuery.Store.Row

/-!
# Sorting by keys

Documents are sorted by the values at the paths of sort keys.  `SortKeys.compareValues` is the order by
keys of whatever has values for them.  It is an order as long as all values are of the kinds of
`Value.IsSortable` (`SortKeys.ordersOn_compareValues`), since among these none is equal to two others
that differ.
-/

namespace DocQuery

/-! ### Values -/

namespace Value

/-- Null, texts, whole numbers, dates and object ids. -/
inductive IsSortable : Value → Prop
  | null : IsSortable .null
  | string (s : String) : IsSortable (.string s)
  | int32 (n : Int32) : IsSortable (.int32 n)
  | int64 (n : Int64) : IsSortable (.int64 n)
  | date (time : Instant) : IsSortable (.date time)
  | objectId (id : ObjectId) : IsSortable (.objectId id)

variable {x y z : Value}

theorem IsSortable.isScalar (h : x.IsSortable) : x.IsScalar := by cases h <;> trivial

theorem IsSortable.not_blurs (h : y.IsSortable) : ¬Blurs y x z := by
  rintro (⟨hy, -⟩ | ⟨rfl, -⟩)
  · cases hy <;> cases h
  · cases h

theorem inLine_isSortable : InLine IsSortable := by
  intro x y z hx hy hz hle hle'
  refine isLE_of_brackets hle hle' fun hxy hzy => ?_
  exact isLE_scalars hx.isScalar hy.isScalar hxy hzy hy.not_blurs hle hle'

/-- Values in one line put the things in order that have them. -/
theorem ordersOn_of_inLine {α : Type} {P : Value → Prop} {f : α → Value} {xs : List α} (hline : InLine P)
    (h : ∀ a ∈ xs, P (f a)) : OrdersOn (fun a b => (f a).compare (f b)) xs where
  swap _ _ _ _ := compare_swap _ _
  trans a ha b hb c hc := hline _ _ _ (h a ha) (h b hb) (h c hc)

end Value

/-! ### Keys -/

/-- The order of two values in a direction; values have no relevance. -/
def Direction.compareValues (direction : Direction) (a b : Value) : Ordering :=
  match direction with
  | .ascending => a.compare b
  | .descending => b.compare a
  | .relevance => .eq

namespace SortKeys

variable {α : Type} {keys : SortKeys} {value : String → α → Value}

/-- The order of two things by the values that they have for keys: the first key that tells them apart
decides. -/
def compareValues (keys : SortKeys) (value : String → α → Value) (a b : α) : Ordering :=
  keys.foldr (fun key rest => (key.2.compareValues (value key.1 a) (value key.1 b)).then rest) .eq

theorem compareValues_cons (key : String × Direction) (keys : SortKeys) (value : String → α → Value)
    (a b : α) : compareValues (key :: keys) value a b =
      (key.2.compareValues (value key.1 a) (value key.1 b)).then (keys.compareValues value a b) := rfl

theorem ordersOn_direction (direction : Direction) {f : α → Value} {xs : List α}
    (h : ∀ a ∈ xs, (f a).IsSortable) : OrdersOn (fun a b => direction.compareValues (f a) (f b)) xs := by
  have hascending := Value.ordersOn_of_inLine Value.inLine_isSortable h
  cases direction with
  | ascending => exact hascending
  | descending => exact hascending.opposite
  | relevance => exact .const_eq xs

/-- Keys put those things in order whose values can be sorted by. -/
theorem ordersOn_compareValues {xs : List α}
    (h : ∀ key ∈ keys, ∀ a ∈ xs, (value key.1 a).IsSortable) :
    OrdersOn (keys.compareValues value) xs := by
  induction keys with
  | nil => exact .const_eq xs
  | cons key rest ih =>
    rw [List.forall_mem_cons] at h
    exact (ordersOn_direction key.2 h.1).lex (ih h.2)

theorem compareValues_congr {β : Type} {theirs : String → β → Value} {a b : α} {c d : β}
    (h : ∀ key ∈ keys, value key.1 a = theirs key.1 c ∧ value key.1 b = theirs key.1 d) :
    keys.compareValues value a b = keys.compareValues theirs c d := by
  induction keys with
  | nil => rfl
  | cons key rest ih =>
    rw [List.forall_mem_cons] at h
    rw [compareValues_cons, compareValues_cons, h.1.1, h.1.2, ih h.2]

theorem compareValues_self (direction : Direction) (a : Value) :
    direction.compareValues a a = .eq := by
  cases direction <;> first | exact Value.compare_self a | rfl

/-- Keys at which two things have the same value can be left out. -/
theorem compareValues_filter {p : String × Direction → Bool} {a b : α}
    (h : ∀ key ∈ keys, p key = false → value key.1 a = value key.1 b) :
    compareValues (keys.filter p) value a b = keys.compareValues value a b := by
  induction keys with
  | nil => rfl
  | cons key rest ih =>
    rw [List.forall_mem_cons] at h
    rw [List.filter_cons, compareValues_cons, ← ih h.2]
    split
    · rfl
    · next hkey =>
      rw [h.1 (by simpa using hkey), compareValues_self]
      rfl

end SortKeys

/-! ### Documents -/

/-- The value at a path that documents are sorted by: null if there is none. -/
def Document.valueAt (path : String) (doc : Document) : Value :=
  (Path.get doc (Path.ofText path)).getD .null

theorem Row.compare_ofDocument (keys : SortKeys) (a b : Document) :
    Row.compare keys (.ofDocument a) (.ofDocument b) =
      keys.compareValues Document.valueAt a b := by
  induction keys with
  | nil => rfl
  | cons key rest ih =>
    have hkey : Row.compareBy key (.ofDocument a) (.ofDocument b) =
        key.2.compareValues (a.valueAt key.1) (b.valueAt key.1) := by
      obtain ⟨path, direction⟩ := key
      cases direction <;> rfl
    rw [SortKeys.compareValues_cons, ← ih, ← hkey]
    rfl

/-- Documents are sorted stably by what they hold at the keys. -/
theorem sortDocuments_eq (keys : SortKeys) (docs : List Document) :
    sortDocuments keys docs = stableSort .unordered (keys.compareValues Document.valueAt) docs := by
  rw [sortDocuments, Row.sort, stableSort_map fun a _ b _ => Row.compare_ofDocument keys a b]
  cases stableSort StoreError.unordered (keys.compareValues Document.valueAt) docs with
  | error fault => rfl
  | ok sorted =>
    simp only [Except.map, List.map_map]
    exact congrArg Except.ok (List.map_id'' (fun _ => rfl) sorted)

theorem sortDocuments_perm {keys : SortKeys} {docs sorted : List Document}
    (h : sortDocuments keys docs = .ok sorted) : sorted.Perm docs :=
  stableSort_perm (sortDocuments_eq keys docs ▸ h)

/-- Without keys documents stay in their order. -/
theorem sortDocuments_nil (docs : List Document) : sortDocuments [] docs = .ok docs :=
  (sortDocuments_eq [] docs).trans (stableSort_const_eq _ docs)

end DocQuery
