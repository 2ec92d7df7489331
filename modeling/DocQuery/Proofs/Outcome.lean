import Mathlib.Data.List.Forall2

/-!
# Outcomes that may be errors

When a step of a computation that may fail gives a value: a sequence gives one if both parts do, and
a result that is mapped is there if the result is.  A sequence fails with the fault of the part that fails.
-/

namespace DocQuery.Outcome

variable {ε α β : Type}

theorem bind_eq_ok_iff {x : Except ε α} {f : α → Except ε β} {b : β} :
    (x >>= f) = .ok b ↔ ∃ a, x = .ok a ∧ f a = .ok b := by
  cases x with
  | error e => simp [bind, Except.bind]
  | ok a => simp [bind, Except.bind]

theorem ok_bind (a : α) (f : α → Except ε β) : (Except.ok a >>= f) = f a := rfl

/-- The same where nothing but the error is kept track of. -/
theorem run_bind_eq_ok_iff {x : ExceptT ε Id α} {f : α → ExceptT ε Id β} {b : β} :
    (x >>= f).run.run = .ok b ↔ ∃ a, x.run.run = .ok a ∧ (f a).run.run = .ok b := by
  show (match x.run.run with | .ok a => (f a).run.run | .error e => .error e) = _ ↔ _
  cases x.run.run <;> simp

theorem run_bind_eq_error_iff {x : ExceptT ε Id α} {f : α → ExceptT ε Id β} {e : ε} :
    (x >>= f).run.run = .error e ↔
      x.run.run = .error e ∨ ∃ a, x.run.run = .ok a ∧ (f a).run.run = .error e := by
  show (match x.run.run with | .ok a => (f a).run.run | .error e => .error e) = _ ↔ _
  cases x.run.run <;> simp

theorem run_pure_eq_ok_iff {a b : α} :
    (pure a : ExceptT ε Id α).run.run = .ok b ↔ a = b :=
  ⟨fun h => Except.ok.inj h, fun h => congrArg Except.ok h⟩

theorem run_adapt_eq_ok_iff {ε' : Type} {x : ExceptT ε Id α} {f : ε → ε'} {a : α} :
    (ExceptT.adapt f x).run.run = .ok a ↔ x.run.run = .ok a := by
  show x.run.run.mapError f = _ ↔ _
  cases x.run.run <;> simp [Except.mapError]

theorem run_adapt_eq_error_iff {ε' : Type} {x : ExceptT ε Id α} {f : ε → ε'} {e : ε'} :
    (ExceptT.adapt f x).run.run = .error e ↔ ∃ fault, x.run.run = .error fault ∧ f fault = e := by
  show x.run.run.mapError f = _ ↔ _
  cases x.run.run <;> simp [Except.mapError]

theorem map_eq_ok_iff {x : Except ε α} {f : α → β} {b : β} :
    x.map f = .ok b ↔ ∃ a, x = .ok a ∧ f a = b := by
  cases x with
  | error e => simp [Except.map]
  | ok a => simp [Except.map]

theorem map_eq_error_iff {x : Except ε α} {f : α → β} {e : ε} :
    x.map f = .error e ↔ x = .error e := by
  cases x <;> simp [Except.map]

theorem mapError_eq_ok_iff {ε' : Type} {x : Except ε α} {f : ε → ε'} {a : α} :
    x.mapError f = .ok a ↔ x = .ok a := by
  cases x <;> simp [Except.mapError]

theorem toOption_eq_some_iff {x : Except ε α} {a : α} : x.toOption = some a ↔ x = .ok a := by
  cases x <;> simp [Except.toOption]

/-- Two computations have the same values if one has every value that the other one has. -/
theorem toOption_eq_of_iff {ε' : Type} {x : Except ε α} {y : Except ε' α}
    (h : ∀ a, x = .ok a ↔ y = .ok a) : x.toOption = y.toOption := by
  refine Option.ext fun a => ?_
  rw [toOption_eq_some_iff, toOption_eq_some_iff, h]

/-- A list is computed if each of its elements is. -/
theorem mapM_eq_ok_iff {f : α → Except ε β} {xs : List α} {ys : List β} :
    xs.mapM f = .ok ys ↔ List.Forall₂ (fun x y => f x = .ok y) xs ys := by
  induction xs generalizing ys with
  | nil =>
    rw [List.mapM_nil, List.forall₂_nil_left_iff]
    exact ⟨fun h => (Except.ok.inj h).symm, fun h => h ▸ rfl⟩
  | cons x rest ih =>
    rw [List.mapM_cons, List.forall₂_cons_left_iff]
    simp only [bind_eq_ok_iff, ih]
    constructor
    · rintro ⟨y, hy, others, hothers, h⟩
      exact ⟨y, others, hy, hothers, (Except.ok.inj h).symm⟩
    · rintro ⟨y, others, hy, hothers, rfl⟩
      exact ⟨y, hy, others, hothers, rfl⟩

/-- A list has partners for its elements if each of them has one. -/
theorem exists_forall₂_iff {R : α → β → Prop} {xs : List α} :
    (∃ ys, List.Forall₂ R xs ys) ↔ ∀ x ∈ xs, ∃ y, R x y := by
  induction xs with
  | nil => simp
  | cons x rest ih =>
    rw [List.forall_mem_cons, ← ih]
    simp only [List.forall₂_cons_left_iff]
    constructor
    · rintro ⟨_, y, others, hy, hothers, rfl⟩
      exact ⟨⟨y, hy⟩, others, hothers⟩
    · rintro ⟨⟨y, hy⟩, others, hothers⟩
      exact ⟨_, y, others, hy, hothers, rfl⟩

/-- A list can be computed if each of its elements can. -/
theorem exists_mapM_eq_ok_iff {f : α → Except ε β} {xs : List α} :
    (∃ ys, xs.mapM f = .ok ys) ↔ ∀ x ∈ xs, ∃ y, f x = .ok y := by
  simp only [mapM_eq_ok_iff, exists_forall₂_iff]

/-- What a relation pairs up with the elements of a list has a partner there. -/
theorem exists_of_forall₂ {R : α → β → Prop} {xs : List α} {ys : List β} (h : List.Forall₂ R xs ys)
    {y : β} (hy : y ∈ ys) : ∃ x ∈ xs, R x y := by
  induction h with
  | nil => cases hy
  | @cons x first xs ys hfirst hrest ih =>
    rcases List.mem_cons.1 hy with rfl | hy
    · exact ⟨x, List.mem_cons_self, hfirst⟩
    · obtain ⟨x, hx, hR⟩ := ih hy
      exact ⟨x, List.mem_cons_of_mem _ hx, hR⟩

theorem exists_of_mapM {f : α → Except ε β} {xs : List α} {ys : List β} (h : xs.mapM f = .ok ys)
    {y : β} (hy : y ∈ ys) : ∃ x ∈ xs, f x = .ok y :=
  exists_of_forall₂ (mapM_eq_ok_iff.1 h) hy

end DocQuery.Outcome
