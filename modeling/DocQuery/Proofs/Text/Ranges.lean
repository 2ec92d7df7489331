import DocQuery.Text.Ranges
import Mathlib.Data.List.Pairwise

/-!
# Combining sets of code points

`Ranges.combine` sweeps two ascending lists at once.  On its way it knows for each of them on which side of
a change it is; `Ranges.inside` is membership seen from there.  Every point that is met divides both lists
(`Ranges.Divides`), and what was combined behind it is combined in front of it (`Combines.step`).  So the
combined list ascends again, and has those points in it for which the operation holds
(`Ranges.contains_combine`).
-/

namespace DocQuery.Text.Ranges

/-- The points of a list ascend. -/
abbrev Ascending (ranges : Ranges) : Prop := ranges.Pairwise (· < ·)

/-- Membership of a point, if the points in front of the list are members or not. -/
def inside : Bool → Ranges → Nat → Bool
  | before, [], _ => before
  | before, x :: rest, c => if c < x then before else inside (!before) rest c

theorem contains_eq_inside (ranges : Ranges) (c : Nat) : ranges.contains c = inside false ranges c := by
  fun_induction contains ranges c with
  | case1 => rfl
  | case2 start c =>
    rw [inside, inside]
    split
    · next h => exact decide_eq_false (Nat.not_le_of_lt h)
    · next h => exact decide_eq_true (Nat.le_of_not_lt h)
  | case3 start c stop rest h => simp [inside, h]
  | case4 start c stop rest h hstop => simp [inside, h, hstop]
  | case5 start c stop rest h hstop ih => simp [inside, h, hstop, ih]

theorem inside_of_lt {ranges : Ranges} {c : Nat} (h : ∀ x ∈ ranges, c < x) (before : Bool) :
    inside before ranges c = before := by
  cases ranges with
  | nil => rfl
  | cons x rest => rw [inside, if_pos (h x List.mem_cons_self)]

/-! ### Points on the way -/

/-- In front of a point a list changes nothing; behind it, the list is another one. -/
structure Divides (point : Nat) (before : Bool) (ranges : Ranges) (after : Bool) (rest : Ranges) :
    Prop where
  inside : ∀ c, inside before ranges c = if c < point then before else inside after rest c
  later : ∀ x ∈ rest, point < x
  mem : ∀ x ∈ rest, x ∈ ranges

variable {point : Nat} {before after : Bool} {ranges rest : Ranges}

theorem divides_cons (h : Ascending (point :: rest)) (before : Bool) :
    Divides point before (point :: rest) (!before) rest :=
  ⟨fun _ => rfl, (List.pairwise_cons.1 h).1, fun _ => List.mem_cons_of_mem point⟩

theorem divides_of_later (h : ∀ x ∈ ranges, point < x) (before : Bool) :
    Divides point before ranges before ranges where
  inside c := by
    split
    · next hc => exact inside_of_lt (fun x hx => Nat.lt_trans hc (h x hx)) before
    · rfl
  later := h
  mem _ hx := hx

/-- A point stands in front of a list only if membership changes there. -/
theorem divides_changing (h : ∀ x ∈ rest, point < x) :
    Divides point before (changing before after point rest) after rest := by
  unfold changing
  split
  · next hsame =>
    obtain rfl := beq_iff_eq.1 hsame
    exact divides_of_later h before
  · next hne =>
    have hafter : (!before) = after := by cases before <;> cases after <;> simp_all
    exact ⟨fun c => by rw [inside, hafter], h, fun _ => List.mem_cons_of_mem point⟩

/-! ### The sweep -/

/-- A list combines two others, from where membership in them is known. -/
structure Combines (op : Bool → Bool → Bool) (first : Ranges) (inFirst : Bool) (second : Ranges)
    (inSecond : Bool) (out : Ranges) : Prop where
  ascending : Ascending out
  mem : ∀ x ∈ out, x ∈ first ∨ x ∈ second
  inside : ∀ c, inside (op inFirst inSecond) out c =
    op (inside inFirst first c) (inside inSecond second c)

variable {op : Bool → Bool → Bool} {first second first' second' out : Ranges}
  {inFirst inSecond inFirst' inSecond' : Bool}

/-- One more point in front of what is combined behind it. -/
theorem Combines.step (h : Combines op first' inFirst' second' inSecond' out)
    (hfirst : Divides point inFirst first inFirst' first')
    (hsecond : Divides point inSecond second inSecond' second')
    (hpoint : point ∈ first ∨ point ∈ second) :
    Combines op first inFirst second inSecond
      (changing (op inFirst inSecond) (op inFirst' inSecond') point out) := by
  have hlater : ∀ x ∈ out, point < x := fun x hx =>
    (h.mem x hx).elim (hfirst.later x) (hsecond.later x)
  refine ⟨?_, fun x hx => ?_, fun c => ?_⟩
  · unfold changing
    split
    · exact h.ascending
    · exact List.pairwise_cons.2 ⟨hlater, h.ascending⟩
  · have hcases : x = point ∨ x ∈ out := by
      unfold changing at hx
      split at hx
      · exact .inr hx
      · exact List.mem_cons.1 hx
    rcases hcases with rfl | hx
    · exact hpoint
    · exact (h.mem x hx).imp (hfirst.mem x) (hsecond.mem x)
  · rw [(divides_changing hlater).inside, hfirst.inside, hsecond.inside, h.inside]
    split <;> rfl

theorem combines_last (hsecond : Ascending second) (inFirst inSecond : Bool) :
    Combines op [] inFirst second inSecond (combineLast op inFirst second inSecond) := by
  induction second generalizing inSecond with
  | nil => exact ⟨.nil, fun _ hx => .inl hx, fun _ => rfl⟩
  | cons y second ih =>
    refine (ih hsecond.of_cons !inSecond).step ?_ (divides_cons hsecond inSecond) (.inr List.mem_cons_self)
    exact divides_of_later (by simp) inFirst

theorem combines_from (hfirst : Ascending first) (hsecond : Ascending second) (inFirst inSecond : Bool) :
    Combines op first inFirst second inSecond (combineFrom op first inFirst second inSecond) := by
  induction first generalizing inFirst second inSecond with
  | nil => exact combines_last hsecond inFirst inSecond
  | cons x first ihfirst =>
    have hx := (List.pairwise_cons.1 hfirst).1
    rw [combineFrom]
    -- the points of the second list in front of `x`
    induction second generalizing inSecond with
    | nil =>
      exact (ihfirst hfirst.of_cons hsecond (!inFirst) inSecond).step (divides_cons hfirst inFirst)
        (divides_of_later (by simp) inSecond) (.inl List.mem_cons_self)
    | cons y second ihsecond =>
      have hy := (List.pairwise_cons.1 hsecond).1
      rw [combineUpTo]
      split
      · next hlt =>
        refine (ihsecond hsecond.of_cons !inSecond).step (divides_of_later ?_ inFirst)
          (divides_cons hsecond inSecond) (.inr List.mem_cons_self)
        exact List.forall_mem_cons.2 ⟨hlt, fun z hz => Nat.lt_trans hlt (hx z hz)⟩
      · split
        · next hlt =>
          refine (ihfirst hfirst.of_cons hsecond (!inFirst) inSecond).step (divides_cons hfirst inFirst)
            (divides_of_later ?_ inSecond) (.inl List.mem_cons_self)
          exact List.forall_mem_cons.2 ⟨hlt, fun z hz => Nat.lt_trans hlt (hy z hz)⟩
        · next hge hle =>
          obtain rfl : x = y := Nat.le_antisymm (Nat.le_of_not_lt hge) (Nat.le_of_not_lt hle)
          exact (ihfirst hfirst.of_cons hsecond.of_cons (!inFirst) (!inSecond)).step
            (divides_cons hfirst inFirst) (divides_cons hsecond inSecond) (.inl List.mem_cons_self)

theorem ascending_combine (op : Bool → Bool → Bool) (hfirst : Ascending first)
    (hsecond : Ascending second) : Ascending (combine op first second) :=
  (combines_from hfirst hsecond false false).ascending

/-- The combination of two ascending lists has those points in it for which the operation holds. -/
theorem contains_combine (hop : op false false = false) (hfirst : Ascending first)
    (hsecond : Ascending second) (c : Nat) :
    (combine op first second).contains c = op (first.contains c) (second.contains c) := by
  have hcombines : Combines op first false second false (combine op first second) :=
    combines_from hfirst hsecond false false
  have h := hcombines.inside c
  rwa [hop, ← contains_eq_inside, ← contains_eq_inside, ← contains_eq_inside] at h

end DocQuery.Text.Ranges
