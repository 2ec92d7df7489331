/-!
# Stable sorting

`stableSort` orders a list by a comparison and keeps equal elements in their order.  A comparison that is no
order on the elements of a list, say because it goes round in a circle, settles nothing: the sort leaves open
what comes out and may break off.  Only short lists are sorted even then, by insertion: each element is put
behind the last one that it is not less than.  So `stableSort` has a result for lists that are `Sortable`,
and `insertionSort` says which one.
-/

namespace DocQuery

variable {α : Type} {order : α → α → Ordering} {xs : List α}

/-! ### Sorting by insertion -/

/-- An element put into a list that is in descending order: in front of all that it is not less
than. -/
def placeDescending {α : Type} (order : α → α → Ordering) (x : α) : List α → List α
  | [] => [x]
  | y :: rest =>
    if order x y = .lt then y :: placeDescending order x rest else x :: y :: rest

/-- A list in ascending order. -/
def insertionSort {α : Type} (order : α → α → Ordering) (xs : List α) : List α :=
  (xs.foldl (fun done x => placeDescending order x done) []).reverse

theorem placeDescending_perm {α : Type} (order : α → α → Ordering) (x : α) (ys : List α) :
    (placeDescending order x ys).Perm (x :: ys) := by
  induction ys with
  | nil => exact List.Perm.refl _
  | cons y rest ih =>
    unfold placeDescending
    split
    · exact (ih.cons y).trans (List.Perm.swap x y rest)
    · exact List.Perm.refl _

/-- Sorting neither loses nor adds an element. -/
theorem insertionSort_perm {α : Type} (order : α → α → Ordering) (xs : List α) :
    (insertionSort order xs).Perm xs := by
  suffices h : ∀ done : List α,
      (xs.foldl (fun done x => placeDescending order x done) done).Perm (xs ++ done) by
    exact (List.reverse_perm _).trans (by simpa using h [])
  induction xs with
  | nil => intro done; exact List.Perm.refl _
  | cons x rest ih =>
    intro done
    refine (ih _).trans ?_
    refine ((placeDescending_perm order x done).append_left rest).trans ?_
    simp

/-! ### Whether a comparison is an order -/

/-- A comparison is an order on the elements of a list. -/
structure OrdersOn (order : α → α → Ordering) (xs : List α) : Prop where
  swap : ∀ a ∈ xs, ∀ b ∈ xs, order b a = (order a b).swap
  trans : ∀ a ∈ xs, ∀ b ∈ xs, ∀ c ∈ xs, (order a b).isLE → (order b c).isLE → (order a c).isLE

/-- How many elements of a list are less than one. -/
def rank (order : α → α → Ordering) (xs : List α) (x : α) : Nat :=
  xs.countP fun y => order y x == .lt

/-- Every two elements are compared as the numbers beside them. -/
def RankedBy (order : α → α → Ordering) (ranked : List (α × Nat)) : Prop :=
  ∀ p ∈ ranked, ∀ q ∈ ranked, order p.1 q.1 = compare p.2 q.2

instance (ranked : List (α × Nat)) : Decidable (RankedBy order ranked) :=
  inferInstanceAs (Decidable (∀ p ∈ ranked, ∀ q ∈ ranked, order p.1 q.1 = compare p.2 q.2))

namespace OrdersOn

theorem lt_of_lt_of_isLE (h : OrdersOn order xs) {a b c : α} (ha : a ∈ xs) (hb : b ∈ xs) (hc : c ∈ xs)
    (hab : order a b = .lt) (hbc : (order b c).isLE) : order a c = .lt := by
  have hac := h.trans a ha b hb c hc (by rw [hab]; rfl) hbc
  cases horder : order a c with
  | lt => rfl
  | gt => rw [horder] at hac; cases hac
  | eq =>
    -- then `b` would be before `a`
    have hca : (order c a).isLE := by rw [h.swap a ha c hc, horder]; rfl
    have hba := h.trans b hb c hc a ha hbc hca
    rw [h.swap a ha b hb, hab] at hba
    cases hba

theorem rank_eq (h : OrdersOn order xs) {a b : α} (ha : a ∈ xs) (hb : b ∈ xs)
    (hab : order a b = .eq) : rank order xs a = rank order xs b := by
  have hba : order b a = .eq := by rw [h.swap a ha b hb, hab]; rfl
  refine List.countP_congr fun x hx => ?_
  simp only [beq_iff_eq]
  exact ⟨fun hlt => h.lt_of_lt_of_isLE hx ha hb hlt (by rw [hab]; rfl),
    fun hlt => h.lt_of_lt_of_isLE hx hb ha hlt (by rw [hba]; rfl)⟩

theorem rank_lt (h : OrdersOn order xs) {a b : α} (ha : a ∈ xs) (hb : b ∈ xs)
    (hab : order a b = .lt) : rank order xs a < rank order xs b := by
  have hself : order a a ≠ .lt := by
    intro hlt
    have hswap := h.swap a ha a ha
    rw [hlt] at hswap
    cases hswap
  have hbelow : ∀ x ∈ xs, order x a = .lt → order x b = .lt := fun x hx hlt =>
    h.lt_of_lt_of_isLE hx ha hb hlt (by rw [hab]; rfl)
  obtain ⟨front, back, rfl⟩ := List.append_of_mem ha
  have hfront := List.countP_mono_left (l := front) fun x hx (hlt : (order x a == .lt) = true) =>
    beq_iff_eq.2 (hbelow x (List.mem_append_left _ hx) (beq_iff_eq.1 hlt))
  have hback := List.countP_mono_left (l := back) fun x hx (hlt : (order x a == .lt) = true) =>
    beq_iff_eq.2 (hbelow x (List.mem_append_right _ (List.mem_cons_of_mem _ hx)) (beq_iff_eq.1 hlt))
  simp only [rank, List.countP_append, List.countP_cons, beq_iff_eq, hself, hab, if_true, if_false]
  omega

/-- A comparison is an order exactly if it compares how many elements are less. -/
theorem iff_rankedBy : OrdersOn order xs ↔ RankedBy order (xs.map fun x => (x, rank order xs x)) := by
  unfold RankedBy
  simp only [List.forall_mem_map]
  constructor
  · intro h a ha b hb
    cases hab : order a b with
    | lt => exact (Nat.compare_eq_lt.2 (h.rank_lt ha hb hab)).symm
    | eq => exact (Nat.compare_eq_eq.2 (h.rank_eq ha hb hab)).symm
    | gt =>
      have hba : order b a = .lt := by rw [h.swap a ha b hb, hab]; rfl
      exact (Nat.compare_eq_gt.2 (h.rank_lt hb ha hba)).symm
  · intro h
    refine ⟨fun a ha b hb => ?_, fun a ha b hb c hc => ?_⟩
    · rw [h a ha b hb, h b hb a ha, Nat.compare_swap]
    · rw [h a ha b hb, h b hb c hc, h a ha c hc]
      simpa only [Nat.isLE_compare] using Nat.le_trans

end OrdersOn

instance : Decidable (OrdersOn order xs) := decidable_of_iff _ OrdersOn.iff_rankedBy.symm

/-! ### Sorting where it is promised -/

/-- Lists up to this length are always sorted by insertion. -/
def alwaysSorted : Nat := 20

/-- What comes out of a sort is settled: the list is short, or the comparison is an order on it. -/
def Sortable (order : α → α → Ordering) (xs : List α) : Prop :=
  xs.length ≤ alwaysSorted ∨ OrdersOn order xs

instance : Decidable (Sortable order xs) :=
  inferInstanceAs (Decidable (xs.length ≤ alwaysSorted ∨ OrdersOn order xs))

/-- A list in ascending order, if what comes out is settled. -/
def stableSort {ε α : Type} (unsettled : ε) (order : α → α → Ordering) (xs : List α) :
    Except ε (List α) :=
  if Sortable order xs then .ok (insertionSort order xs) else .error unsettled

section Settled

variable {ε : Type} {unsettled fault : ε} {ys : List α}

theorem stableSort_eq_ok_iff : stableSort unsettled order xs = .ok ys ↔
    Sortable order xs ∧ ys = insertionSort order xs := by
  unfold stableSort
  split <;> simp_all [eq_comm]

theorem stableSort_eq_error_iff : stableSort unsettled order xs = .error fault ↔
    ¬Sortable order xs ∧ fault = unsettled := by
  unfold stableSort
  split <;> simp_all [eq_comm]

theorem stableSort_perm (h : stableSort unsettled order xs = .ok ys) : ys.Perm xs := by
  obtain ⟨-, rfl⟩ := stableSort_eq_ok_iff.1 h
  exact insertionSort_perm order xs

end Settled

end DocQuery
