import DocQuery.Proofs.Keyed
import DocQuery.Proofs.Store.Ordering
import DocQuery.Proofs.Store.Settled

/-!
# The sort stage

The body of a sort stage writes keys with their directions (`SortKeys.WrittenAs`).  A body is accepted just
if it does so (`Execution.sortKeys_eq_ok_iff`), and a sort order is read back from the body that it writes.
`Row.InOrder` is the order of rows that is meant: the first key that tells two rows apart decides.  Rows
whose values at the keys are ordinary, at any depth, are sorted stably into this order
(`Execution.sorts_stably`).
-/

namespace DocQuery

/-! ### Ordinary values -/

namespace Value

/-- Null, truth values, texts, whole numbers, dates and object ids. -/
def IsOrdinary (value : Value) : Prop := value.IsSortable ∨ ∃ b, value = .boolean b

theorem IsOrdinary.not_blurs {x y z : Value} (h : y.IsOrdinary) : ¬Blurs y x z := by
  rcases h with h | ⟨b, rfl⟩
  · exact h.not_blurs
  · rintro (⟨hy, -⟩ | ⟨hy, -⟩) <;> cases hy

/-- What is built from ordinary values is in one line, however deep it is. -/
theorem inLine_ordinary : InLine (BuiltFrom IsOrdinary) := by
  intro x y z hx hy hz
  have hsizes := inLine_of_size (P := IsOrdinary) (fun _ _ _ _ hy _ => hy.not_blurs)
    (sizeOf x + sizeOf y + sizeOf z + 1)
  exact hsizes x y z ⟨hx, by omega⟩ ⟨hy, by omega⟩ ⟨hz, by omega⟩

end Value

/-! ### Keys as they are written -/

/-- How the body of a sort stage writes a direction. -/
inductive Direction.WrittenAs : Direction → Value → Prop
  | ascending32 : WrittenAs .ascending (.int32 1)
  | ascending64 : WrittenAs .ascending (.int64 1)
  | descending32 : WrittenAs .descending (.int32 (-1))
  | descending64 : WrittenAs .descending (.int64 (-1))
  | relevance {fields : Document} (h : fields.string? "$meta" = some "textScore") :
    WrittenAs .relevance (.document fields)

/-- A body writes keys: their paths, each with its direction, in their order. -/
def SortKeys.WrittenAs (keys : SortKeys) (body : Document) : Prop :=
  List.Forall₂ (fun field key => key.1 = field.1 ∧ key.2.WrittenAs field.2) body keys

namespace Execution

theorem direction?_eq_some_iff {value : Value} {direction : Direction} :
    direction? value = some direction ↔ direction.WrittenAs value := by
  constructor
  · intro h
    unfold direction? at h
    split at h
    · obtain ⟨hmeta, rfl⟩ := Option.ite_some_none_eq_some.1 h
      exact .relevance (beq_iff_eq.1 hmeta)
    · split at h
      · next hone => cases h; exact hone ▸ .ascending32
      · obtain ⟨rfl, rfl⟩ := Option.ite_some_none_eq_some.1 h
        exact .descending32
    · split at h
      · next hone => cases h; exact hone ▸ .ascending64
      · obtain ⟨rfl, rfl⟩ := Option.ite_some_none_eq_some.1 h
        exact .descending64
    · cases h
  · rintro (_ | _ | _ | _ | h)
    all_goals first | rfl | simp [direction?, h]

/-- A body is read as the keys that it writes, and refused if it writes none. -/
theorem sortKeys_eq_ok_iff {body : Document} {keys : SortKeys} :
    sortKeys body = .ok keys ↔ keys.WrittenAs body := by
  rw [sortKeys, Outcome.mapM_eq_ok_iff, SortKeys.WrittenAs]
  refine iff_of_eq (congrArg (List.Forall₂ · body keys) (funext₂ fun (path, value) key => propext ?_))
  rw [← direction?_eq_some_iff]
  dsimp only
  cases direction? value with
  | none => simp [fault]
  | some direction => simp [Prod.ext_iff, eq_comm]

end Execution

namespace SortKeys

theorem writtenAs_toValue (direction : Direction) : direction.WrittenAs direction.toValue := by
  cases direction
  · exact .ascending32
  · exact .descending32
  · exact .relevance rfl

theorem writtenAs_toDocument {keys : SortKeys} (h : Keyed.Distinct keys) :
    keys.WrittenAs keys.toDocument := by
  have hfields : Keyed.Distinct (keys.map fun key => (key.1, key.2.toValue)) := by
    rw [Keyed.Distinct, Keyed.keys, List.map_map]
    exact h
  have hdocument : keys.toDocument = keys.map fun key => (key.1, key.2.toValue) :=
    Keyed.ofList_of_distinct hfields
  rw [hdocument, WrittenAs, List.forall₂_map_left_iff, List.forall₂_same]
  exact fun key _ => ⟨rfl, writtenAs_toValue key.2⟩

end SortKeys

/-! ### Rows in order -/

namespace Row

/-- A key puts one row before another one. -/
def Before (key : String × Direction) (a b : Row) : Prop :=
  match key.2 with
  | .ascending => (a.doc.valueAt key.1).compare (b.doc.valueAt key.1) = .lt
  | .descending => (b.doc.valueAt key.1).compare (a.doc.valueAt key.1) = .lt
  | .relevance => b.relevance < a.relevance

/-- A key does not tell two rows apart. -/
def Level (key : String × Direction) (a b : Row) : Prop :=
  match key.2 with
  | .ascending => (a.doc.valueAt key.1).compare (b.doc.valueAt key.1) = .eq
  | .descending => (b.doc.valueAt key.1).compare (a.doc.valueAt key.1) = .eq
  | .relevance => b.relevance = a.relevance

/-- One row is not behind another one: the first key that tells them apart, if there is one, puts it
before the other one. -/
inductive InOrder : SortKeys → Row → Row → Prop
  | nil {a b : Row} : InOrder [] a b
  | before {key : String × Direction} {keys : SortKeys} {a b : Row} (h : Before key a b) :
    InOrder (key :: keys) a b
  | level {key : String × Direction} {keys : SortKeys} {a b : Row} (h : Level key a b)
    (hkeys : InOrder keys a b) : InOrder (key :: keys) a b

variable {key : String × Direction} {keys : SortKeys} {a b : Row} {rows : List Row}

theorem compareBy_eq_lt_iff : compareBy key a b = .lt ↔ Before key a b := by
  obtain ⟨path, direction⟩ := key
  cases direction with
  | ascending | descending => rfl
  | relevance => exact Nat.compare_eq_lt

theorem compareBy_eq_eq_iff : compareBy key a b = .eq ↔ Level key a b := by
  obtain ⟨path, direction⟩ := key
  cases direction with
  | ascending | descending => rfl
  | relevance => exact Nat.compare_eq_eq

theorem compare_cons (key : String × Direction) (keys : SortKeys) (a b : Row) :
    compare (key :: keys) a b = (compareBy key a b).then (compare keys a b) := rfl

theorem isLE_compare_iff : (compare keys a b).isLE = true ↔ InOrder keys a b := by
  induction keys with
  | nil => exact iff_of_true rfl .nil
  | cons key keys ih =>
    rw [compare_cons]
    constructor
    · intro h
      cases hkey : compareBy key a b with
      | lt => exact .before (compareBy_eq_lt_iff.1 hkey)
      | eq => exact .level (compareBy_eq_eq_iff.1 hkey) (ih.1 (by simpa [hkey] using h))
      | gt => simp [hkey] at h
    · rintro (h | h | ⟨h, hkeys⟩)
      · rw [compareBy_eq_lt_iff.2 h]
        rfl
      · rw [compareBy_eq_eq_iff.2 h]
        exact ih.2 hkeys

theorem compare_eq_eq (h : ∀ key ∈ keys, Level key a b) : compare keys a b = .eq := by
  induction keys with
  | nil => rfl
  | cons key keys ih =>
    rw [List.forall_mem_cons] at h
    rw [compare_cons, compareBy_eq_eq_iff.2 h.1]
    exact ih h.2

theorem ordersOn_relevance (path : String) (rows : List Row) :
    OrdersOn (compareBy (path, .relevance)) rows where
  swap _ _ _ _ := (Nat.compare_swap _ _).symm
  trans _ _ _ _ _ _ hab hbc := Std.TransOrd.isLE_trans hbc hab

theorem ordersOn_compareBy (h : ∀ row ∈ rows, (row.doc.valueAt key.1).BuiltFrom Value.IsOrdinary) :
    OrdersOn (compareBy key) rows := by
  obtain ⟨path, direction⟩ := key
  have hvalues := Value.ordersOn_of_inLine Value.inLine_ordinary h
  cases direction with
  | ascending => exact hvalues
  | descending => exact hvalues.opposite
  | relevance => exact ordersOn_relevance path rows

theorem ordersOn_compare
    (h : ∀ key ∈ keys, ∀ row ∈ rows, (row.doc.valueAt key.1).BuiltFrom Value.IsOrdinary) :
    OrdersOn (compare keys) rows := by
  induction keys with
  | nil => exact .const_eq rows
  | cons key keys ih =>
    rw [List.forall_mem_cons] at h
    exact (ordersOn_compareBy h.1).lex (ih h.2)

end Row

/-! ### The stage -/

theorem Execution.runStage_sort_eq_ok_iff (textIndex : List String) (rows : List Row) {body : Document}
    {result : List Row} : runStage textIndex rows (Stage.toDocument (.sort body)) = .ok result ↔
      ∃ keys : SortKeys, keys.WrittenAs body ∧ Sortable (Row.compare keys) rows ∧
        result = insertionSort (Row.compare keys) rows := by
  simp only [runStage_sort, Outcome.bind_eq_ok_iff, sortKeys_eq_ok_iff, Row.sort, stableSort_eq_ok_iff]

/-- **The sort stage sorts stably.**  It accepts a body just if the body writes keys with their directions;
then it has a result, unless these are no order on more rows than are always sorted, which leaves the result
open.  As long as the values at the paths of the keys are built from ordinary ones, the result is there and
holds the given rows, each one in order with all that follow it, and rows that no key tells apart stay in
their order.  A sort order whose paths are distinct is read back from the body that it writes. -/
theorem Execution.sorts_stably (textIndex : List String) (rows : List Row) (body : Document) :
    (((∃ result, runStage textIndex rows (Stage.toDocument (.sort body)) = .ok result) ∨
          runStage textIndex rows (Stage.toDocument (.sort body)) = .error .unordered) ↔
        ∃ keys : SortKeys, keys.WrittenAs body) ∧
      (∀ keys : SortKeys, keys.WrittenAs body →
        (runStage textIndex rows (Stage.toDocument (.sort body)) = .error .unordered ↔
          ¬Sortable (Row.compare keys) rows)) ∧
      (∀ keys : SortKeys, keys.WrittenAs body →
        (∀ key ∈ keys, ∀ row ∈ rows, (row.doc.valueAt key.1).BuiltFrom Value.IsOrdinary) →
        ∃ result, runStage textIndex rows (Stage.toDocument (.sort body)) = .ok result ∧
          result.Perm rows ∧ result.Pairwise (Row.InOrder keys) ∧
          ∀ part : List Row, part.Sublist rows →
            part.Pairwise (fun a b => ∀ key ∈ keys, Row.Level key a b) → part.Sublist result) ∧
      ∀ order : SortOrder, Keyed.Distinct order.here →
        sortKeys order.here.toDocument = .ok order.here := by
  refine ⟨?_, fun keys hkeys => ?_, fun keys hkeys hvalues => ?_, fun order horder => ?_⟩
  · simp only [runStage_sort_eq_ok_iff, runStage_sort_eq_unordered_iff, sortKeys_eq_ok_iff]
    constructor
    · rintro (⟨_, keys, hkeys, -⟩ | ⟨keys, hkeys, -⟩)
      · exact ⟨keys, hkeys⟩
      · exact ⟨keys, hkeys⟩
    · rintro ⟨keys, hkeys⟩
      by_cases hsortable : Sortable (Row.compare keys) rows
      · exact .inl ⟨_, keys, hkeys, hsortable, rfl⟩
      · exact .inr ⟨keys, hkeys, hsortable⟩
  · rw [runStage_sort_eq_unordered_iff, sortKeys_eq_ok_iff.2 hkeys]
    simp
  · have horders := Row.ordersOn_compare hvalues
    have hsorted := stablySorted_insertionSort horders
    refine ⟨_, (runStage_sort_eq_ok_iff textIndex rows).2 ⟨keys, hkeys, .inr horders, rfl⟩, hsorted.perm,
      ?_, ?_⟩
    · exact hsorted.ascending.imp Row.isLE_compare_iff.1
    · intro part hpart hlevel
      refine hsorted.stable part hpart (hlevel.imp fun hab => ?_)
      rw [Row.compare_eq_eq hab]
      rfl
  · exact sortKeys_eq_ok_iff.2 (SortKeys.writtenAs_toDocument horder)

/-! ### Shirts by their tags -/

namespace ShirtsByTags

open Value

def keys : SortKeys := [("tags", .ascending), ("price", .descending)]

def body : Document := [("tags", .int32 1), ("price", .int64 (-1))]

def plain : Row := .ofDocument [("_id", .int32 4)]

def cheap : Row := .ofDocument [("_id", .int32 1), ("tags", .array [.string "red"]), ("price", .int32 5)]

def dear : Row := .ofDocument [("_id", .int32 2), ("tags", .array [.string "red"]), ("price", .int64 9)]

def dearToo : Row := .ofDocument [("_id", .int32 3), ("tags", .array [.string "red"]), ("price", .int32 9)]

def sized : Row :=
  .ofDocument [("_id", .int32 5), ("tags", .array [.string "red", .document [("sale", .boolean true)]])]

theorem ordinary_values : ∀ key ∈ keys, ∀ row ∈ [sized, cheap, dear, dearToo, plain],
    (row.doc.valueAt key.1).BuiltFrom IsOrdinary := by
  have hnull : Value.null.BuiltFrom IsOrdinary := .scalar trivial (.inl .null)
  have hred : (Value.string "red").BuiltFrom IsOrdinary := .scalar trivial (.inl (.string _))
  have hsale : (Value.document [("sale", .boolean true)]).BuiltFrom IsOrdinary :=
    .document (List.forall_mem_singleton.2 (.scalar trivial (.inr ⟨true, rfl⟩)))
  have hint32 : ∀ n, (Value.int32 n).BuiltFrom IsOrdinary := fun n => .scalar trivial (.inl (.int32 n))
  have hint64 : ∀ n, (Value.int64 n).BuiltFrom IsOrdinary := fun n => .scalar trivial (.inl (.int64 n))
  have hreds : (Value.array [.string "red"]).BuiltFrom IsOrdinary :=
    .array (List.forall_mem_singleton.2 hred)
  have hboth : (Value.array [.string "red", .document [("sale", .boolean true)]]).BuiltFrom IsOrdinary :=
    .array (List.forall_mem_cons.2 ⟨hred, List.forall_mem_singleton.2 hsale⟩)
  simp only [keys, List.forall_mem_cons, List.not_mem_nil, false_imp_iff, implies_true, and_true]
  exact ⟨⟨hboth, hreds, hreds, hreds, hnull⟩, ⟨hnull, hint32 5, hint64 9, hint32 9, hnull⟩⟩

/-- Dear shirts come before cheap ones of the same tags, and two of one price stay in their order. -/
theorem dear_before_cheap :
    keys.WrittenAs body ∧
      Execution.runStage [] [sized, cheap, dear, dearToo, plain] (Stage.toDocument (.sort body)) =
        .ok [plain, dear, dearToo, cheap, sized] ∧
      [plain, dear, dearToo, cheap, sized].Pairwise (Row.InOrder keys) := by
  have hkeys : keys.WrittenAs body :=
    .cons ⟨rfl, .ascending32⟩ (.cons ⟨rfl, .descending64⟩ .nil)
  have hrun : Execution.runStage [] [sized, cheap, dear, dearToo, plain]
      (Stage.toDocument (.sort body)) = .ok [plain, dear, dearToo, cheap, sized] := by rfl
  obtain ⟨result, hresult, -, hordered, -⟩ :=
    (Execution.sorts_stably [] _ body).2.2.1 keys hkeys ordinary_values
  rw [hrun] at hresult
  cases hresult
  exact ⟨hkeys, hrun, hordered⟩

end ShirtsByTags

end DocQuery
