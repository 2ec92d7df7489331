import DocQuery.StableSort
import Mathlib.Data.List.Basic

/-!
# What a stable sort does

`StablySorted` says what a stable sort of a list is: its elements in ascending order, where each part of
the list that was in order before is so afterwards.  So elements that are equal keep their order.
`insertionSort` does this by any comparison that is an order on the elements of the list
(`stablySorted_insertionSort`); what the comparison says of other elements does not matter.  For such a
list the result is settled (`OrdersOn.stableSort_eq`).
-/

namespace DocQuery

variable {α β : Type} {order : α → α → Ordering} {xs ys done : List α} {x : α}

/-- The elements of a list in ascending order; parts of the list that are in order stay as they are. -/
structure StablySorted (order : α → α → Ordering) (xs ys : List α) : Prop where
  perm : ys.Perm xs
  ascending : ys.Pairwise fun a b => (order a b).isLE
  stable : ∀ part : List α, part.Sublist xs → part.Pairwise (fun a b => (order a b).isLE) →
    part.Sublist ys

/-- What is in order already stays as it is. -/
theorem StablySorted.eq_self (h : StablySorted order xs ys)
    (hxs : xs.Pairwise fun a b => (order a b).isLE) : ys = xs :=
  ((h.stable xs (.refl xs) hxs).eq_of_length h.perm.length_eq.symm).symm

namespace OrdersOn

theorem mono (h : OrdersOn order xs) (hys : ∀ y ∈ ys, y ∈ xs) : OrdersOn order ys where
  swap a ha b hb := h.swap a (hys a ha) b (hys b hb)
  trans a ha b hb c hc := h.trans a (hys a ha) b (hys b hb) c (hys c hc)

theorem not_isLE_of_lt (h : OrdersOn order xs) {a b : α} (ha : a ∈ xs) (hb : b ∈ xs)
    (hlt : order a b = .lt) : ¬(order b a).isLE := by
  rw [h.swap a ha b hb, hlt]
  decide

theorem iff_transCmp :
    OrdersOn order xs ↔ Std.TransCmp fun a b : { a // a ∈ xs } => order a.1 b.1 := by
  constructor
  · rintro ⟨hswap, htrans⟩
    exact { eq_swap := hswap _ (Subtype.prop _) _ (Subtype.prop _)
            isLE_trans := htrans _ (Subtype.prop _) _ (Subtype.prop _) _ (Subtype.prop _) }
  · intro h
    exact ⟨fun a ha b hb => h.eq_swap (a := ⟨b, hb⟩) (b := ⟨a, ha⟩), fun a ha b hb c hc =>
      h.isLE_trans (a := ⟨a, ha⟩) (b := ⟨b, hb⟩) (c := ⟨c, hc⟩)⟩

theorem opposite (h : OrdersOn order xs) : OrdersOn (fun a b => order b a) xs where
  swap a ha b hb := h.swap b hb a ha
  trans a ha b hb c hc hab hbc := h.trans c hc b hb a ha hbc hab

/-- One order, and another one where the first does not decide. -/
theorem lex {other : α → α → Ordering} (h : OrdersOn order xs) (hother : OrdersOn other xs) :
    OrdersOn (fun a b => (order a b).then (other a b)) xs := by
  rw [iff_transCmp] at h hother ⊢
  exact inferInstanceAs (Std.TransCmp (compareLex (fun a b : { a // a ∈ xs } => order a.1 b.1)
    fun a b => other a.1 b.1))

theorem const_eq (xs : List α) : OrdersOn (fun _ _ => .eq) xs :=
  ⟨fun _ _ _ _ => rfl, fun _ _ _ _ _ _ _ _ => rfl⟩

end OrdersOn

/-! ### One more element -/

/-- An element is put between those that it is less than and the others. -/
theorem placeDescending_eq_append (order : α → α → Ordering) (x : α) (ys : List α) :
    ∃ above below, ys = above ++ below ∧ placeDescending order x ys = above ++ x :: below ∧
      (∀ y ∈ above, order x y = .lt) ∧ ∀ y ∈ below.head?, order x y ≠ .lt := by
  induction ys with
  | nil => exact ⟨[], [], rfl, rfl, by simp, by simp⟩
  | cons y rest ih =>
    unfold placeDescending
    split
    · next hlt =>
      obtain ⟨above, below, rfl, hplaced, habove, hbelow⟩ := ih
      exact ⟨y :: above, below, rfl, by rw [hplaced, List.cons_append],
        List.forall_mem_cons.2 ⟨hlt, habove⟩, hbelow⟩
    · next hnot => exact ⟨[], y :: rest, rfl, rfl, by simp, by simpa using hnot⟩

/-- The elements in a descending list behind one that is not greater are not greater either. -/
theorem isLE_of_head?_isLE (horders : OrdersOn order (x :: ys))
    (hys : ys.Pairwise fun a b => (order b a).isLE) (hhead : ∀ y ∈ ys.head?, order x y ≠ .lt) :
    ∀ y ∈ ys, (order y x).isLE := by
  cases ys with
  | nil => simp
  | cons first rest =>
    have hfirst : (order first x).isLE := by
      rw [horders.swap x (by simp) first (by simp), Ordering.isLE_swap]
      have hne := hhead first rfl
      cases horder : order x first <;> simp_all
    rw [List.forall_mem_cons]
    refine ⟨hfirst, fun y hy => ?_⟩
    exact horders.trans y (by simp [hy]) first (by simp) x (by simp)
      ((List.pairwise_cons.1 hys).1 y hy) hfirst

/-- One more element is sorted into those that are sorted already. -/
theorem StablySorted.place (h : StablySorted order xs done.reverse)
    (horders : OrdersOn order (xs ++ [x])) :
    StablySorted order (xs ++ [x]) (placeDescending order x done).reverse := by
  obtain ⟨above, below, rfl, hplaced, habove, hbelow⟩ := placeDescending_eq_append order x done
  have hmem : ∀ y ∈ above ++ below, y ∈ xs ++ [x] := fun y hy =>
    List.mem_append_left _ (h.perm.mem_iff.1 (List.mem_reverse.2 hy))
  have hx : x ∈ xs ++ [x] := by simp
  have hascending := h.ascending
  rw [List.pairwise_reverse, List.pairwise_append] at hascending
  obtain ⟨hdescends, hbehind, hbetween⟩ := hascending
  have hbelow : ∀ y ∈ below, (order y x).isLE := by
    refine isLE_of_head?_isLE (horders.mono ?_) hbehind hbelow
    exact List.forall_mem_cons.2 ⟨hx, fun y hy => hmem y (List.mem_append_right _ hy)⟩
  have hle : ∀ y ∈ above, (order x y).isLE := fun y hy => by rw [habove y hy]; rfl
  rw [hplaced]
  refine ⟨?_, ?_, fun part hpart hinOrder => ?_⟩
  · have hrest : (above ++ below).Perm xs := (List.reverse_perm _).symm.trans h.perm
    refine (List.reverse_perm _).trans (List.perm_middle.trans ((hrest.cons x).trans ?_))
    exact (List.perm_append_singleton x xs).symm
  · rw [List.pairwise_reverse, List.pairwise_append, List.pairwise_cons]
    refine ⟨hdescends, ⟨hbelow, hbehind⟩, fun y hy => List.forall_mem_cons.2 ⟨hle y hy, ?_⟩⟩
    exact hbetween y hy
  · rw [List.reverse_append, List.reverse_cons]
    obtain ⟨front, last, rfl, hfront, hlast⟩ := List.sublist_append_iff.1 hpart
    obtain ⟨hordered, -, hends⟩ := List.pairwise_append.1 hinOrder
    have hkept := h.stable front hfront hordered
    rw [List.reverse_append] at hkept
    rcases List.sublist_singleton.1 hlast with rfl | rfl
    · rw [List.append_nil, List.append_assoc]
      exact hkept.trans ((List.Sublist.refl _).append (List.sublist_append_right [x] _))
    · -- what is greater than `x` is no part of what stands in front of `x`
      obtain ⟨low, high, rfl, hlow, hhigh⟩ := List.sublist_append_iff.1 hkept
      obtain rfl : high = [] := by
        refine List.eq_nil_iff_forall_not_mem.2 fun y hy => ?_
        have habove' : y ∈ above := List.mem_reverse.1 (hhigh.subset hy)
        exact horders.not_isLE_of_lt hx (hmem y (List.mem_append_left _ habove')) (habove y habove')
          (hends y (List.mem_append_right _ hy) x (by simp))
      rw [List.append_nil]
      exact (hlow.append (List.Sublist.refl [x])).trans (List.sublist_append_left _ _)

/-! ### The whole sort -/

/-- **The sort is stable**, if the comparison is an order on what is sorted. -/
theorem stablySorted_insertionSort (h : OrdersOn order xs) :
    StablySorted order xs (insertionSort order xs) := by
  suffices hrun : ∀ rest front done : List α, OrdersOn order (front ++ rest) →
      StablySorted order front done.reverse → StablySorted order (front ++ rest)
        (rest.foldl (fun done x => placeDescending order x done) done).reverse by
    exact hrun xs [] [] h ⟨List.Perm.refl _, List.Pairwise.nil, fun part hpart _ => hpart⟩
  intro rest
  induction rest with
  | nil =>
    intro front done _ hdone
    rwa [List.append_nil]
  | cons x rest ih =>
    intro front done horders hdone
    rw [List.append_cons] at horders ⊢
    exact ih _ _ horders (hdone.place (horders.mono fun y hy => List.mem_append_left _ hy))

theorem OrdersOn.stableSort_eq {ε : Type} (h : OrdersOn order xs) (unsettled : ε) :
    stableSort unsettled order xs = .ok (insertionSort order xs) :=
  stableSort_eq_ok_iff.2 ⟨.inr h, rfl⟩

theorem stableSort_const_eq {ε : Type} (unsettled : ε) (xs : List α) :
    stableSort unsettled (fun _ _ => .eq) xs = .ok xs := by
  have horders := OrdersOn.const_eq xs
  rw [horders.stableSort_eq,
    (stablySorted_insertionSort horders).eq_self (List.pairwise_of_forall fun _ _ => rfl)]

/-! ### Sorting by what belongs to the elements -/

theorem placeDescending_map {f : α → β} {theirs : β → β → Ordering}
    (h : ∀ y ∈ ys, theirs (f x) (f y) = order x y) :
    placeDescending theirs (f x) (ys.map f) = (placeDescending order x ys).map f := by
  induction ys with
  | nil => rfl
  | cons y rest ih =>
    rw [List.forall_mem_cons] at h
    rw [List.map_cons, placeDescending, placeDescending, h.1, ih h.2]
    split <;> rfl

/-- Elements can be sorted by what belongs to them. -/
theorem insertionSort_map {f : α → β} {theirs : β → β → Ordering}
    (h : ∀ a ∈ xs, ∀ b ∈ xs, theirs (f a) (f b) = order a b) :
    insertionSort theirs (xs.map f) = (insertionSort order xs).map f := by
  suffices hrun : ∀ rest done : List α, (∀ a ∈ rest, a ∈ xs) → (∀ a ∈ done, a ∈ xs) →
      (rest.map f).foldl (fun done x => placeDescending theirs x done) (done.map f) =
        (rest.foldl (fun done x => placeDescending order x done) done).map f by
    rw [insertionSort, insertionSort, List.map_reverse, ← hrun xs [] (fun _ ha => ha) (by simp)]
    rfl
  intro rest
  induction rest with
  | nil => exact fun _ _ _ => rfl
  | cons x rest ih =>
    intro done hrest hdone
    rw [List.forall_mem_cons] at hrest
    rw [List.map_cons, List.foldl_cons, List.foldl_cons,
      placeDescending_map fun y hy => h x hrest.1 y (hdone y hy)]
    refine ih _ hrest.2 fun a ha => ?_
    rcases List.mem_cons.1 ((placeDescending_perm order x done).mem_iff.1 ha) with rfl | ha
    · exact hrest.1
    · exact hdone a ha

theorem ordersOn_map_iff {f : α → β} {theirs : β → β → Ordering}
    (h : ∀ a ∈ xs, ∀ b ∈ xs, theirs (f a) (f b) = order a b) :
    OrdersOn theirs (xs.map f) ↔ OrdersOn order xs := by
  have hswap : (∀ a ∈ xs.map f, ∀ b ∈ xs.map f, theirs b a = (theirs a b).swap) ↔
      ∀ a ∈ xs, ∀ b ∈ xs, order b a = (order a b).swap := by
    simp only [List.forall_mem_map]
    exact forall₂_congr fun a ha => forall₂_congr fun b hb => by rw [h a ha b hb, h b hb a ha]
  have htrans : (∀ a ∈ xs.map f, ∀ b ∈ xs.map f, ∀ c ∈ xs.map f,
      (theirs a b).isLE → (theirs b c).isLE → (theirs a c).isLE) ↔
      ∀ a ∈ xs, ∀ b ∈ xs, ∀ c ∈ xs, (order a b).isLE → (order b c).isLE → (order a c).isLE := by
    simp only [List.forall_mem_map]
    refine forall₂_congr fun a ha => forall₂_congr fun b hb => forall₂_congr fun c hc => ?_
    rw [h a ha b hb, h b hb c hc, h a ha c hc]
  exact ⟨fun ⟨hs, ht⟩ => ⟨hswap.1 hs, htrans.1 ht⟩, fun ⟨hs, ht⟩ => ⟨hswap.2 hs, htrans.2 ht⟩⟩

theorem sortable_map_iff {f : α → β} {theirs : β → β → Ordering}
    (h : ∀ a ∈ xs, ∀ b ∈ xs, theirs (f a) (f b) = order a b) :
    Sortable theirs (xs.map f) ↔ Sortable order xs := by
  rw [Sortable, Sortable, List.length_map, ordersOn_map_iff h]

theorem stableSort_map {ε : Type} {unsettled : ε} {f : α → β} {theirs : β → β → Ordering}
    (h : ∀ a ∈ xs, ∀ b ∈ xs, theirs (f a) (f b) = order a b) :
    stableSort unsettled theirs (xs.map f) =
      (stableSort unsettled order xs).map fun sorted => sorted.map f := by
  unfold stableSort
  simp only [sortable_map_iff h, insertionSort_map h]
  split <;> rfl

end DocQuery
