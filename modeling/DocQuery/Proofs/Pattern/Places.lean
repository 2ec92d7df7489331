import DocQuery.Pattern.Places
import Mathlib.Data.Nat.Bitwise
import Mathlib.Logic.Function.Iterate

/-!
# Sets of places are followed place by place

`Moves.Leads` says from which place to which other one a move leads.  `Moves.reach` takes a whole set of
places at once, and gets to those places that some place of the set leads to (`follows_reach`).  So a
pattern is found in a text if it leads from any place of the text to any other one
(`Pattern.found_iff_leads`).

A repetition stops early.  Exact repetitions stop when a step changes nothing (`Places.stepTimes_eq`);
optional ones follow only the places that were new, which is enough because whatever the others lead to
was seen already (`Places.testBit_stepUpTo`).
-/

namespace DocQuery

/-- A number of moves, one after the other. -/
def Moves.Times (leads : Nat → Nat → Prop) : Nat → Nat → Nat → Prop
  | 0, i, j => i = j
  | n + 1, i, j => ∃ k, leads i k ∧ Times leads n k j

/-- From which place to which other one a move leads. -/
def Moves.Leads : Moves → Nat → Nat → Prop
  | .stay here, i, j => i = j ∧ Nat.testBit here i = true
  | .step passed, i, j => i + 1 = j ∧ Nat.testBit passed i = true
  | .both first second, i, j => ∃ k, first.Leads i k ∧ second.Leads k j
  | .either first second, i, j => first.Leads i j ∨ second.Leads i j
  | .repeated body times further, i, j =>
    ∃ n, times ≤ n ∧ n ≤ times + further ∧ Times body.Leads n i j

/-! ### Sets -/

namespace Places

theorem testBit_ofList (here : List Bool) (i : Nat) : Nat.testBit (ofList here) i = here.getD i false := by
  induction here generalizing i with
  | nil => simp [ofList]
  | cons b rest ih =>
    have hcons : ofList (b :: rest) = Nat.bit b (ofList rest) := by
      rw [Nat.bit_val]
      rfl
    rw [hcons]
    cases i with
    | zero => simp
    | succ i => simp [Nat.testBit_bit_succ, ih]

theorem testBit_all (n i : Nat) : Nat.testBit (all n) i = decide (i ≤ n) := by
  have hpow : all n = 2 ^ (n + 1) - 1 := rfl
  rw [hpow, Nat.testBit_two_pow_sub_one, decide_eq_decide, Nat.lt_succ_iff]

theorem testBit_without (a b : Places) (i : Nat) :
    Nat.testBit (without a b) i = true ↔ Nat.testBit a i = true ∧ ¬ Nat.testBit b i = true := by
  rw [without, Nat.testBit_xor, Nat.testBit_and]
  cases Nat.testBit a i <;> cases Nat.testBit b i <;> decide

/-! ### Steps -/

/-- A step that gets to the places that some place of a set leads to. -/
def Follows (step : Places → Places) (leads : Nat → Nat → Prop) : Prop :=
  ∀ (places : Places) (j : Nat),
    Nat.testBit (step places) j = true ↔ ∃ i, Nat.testBit places i = true ∧ leads i j

variable {step : Places → Places} {leads : Nat → Nat → Prop}

/-- Once a step changes nothing, no further one does. -/
theorem stepTimes_eq (step : Places → Places) (n : Nat) (places : Places) :
    stepTimes step n places = step^[n] places := by
  induction n generalizing places with
  | zero => rfl
  | succ n ih =>
    rw [stepTimes, Function.iterate_succ_apply]
    split
    · next hfixed => rw [hfixed, Function.iterate_fixed hfixed]
    · rw [ih]

theorem Follows.stepTimes (h : Follows step leads) (n : Nat) :
    Follows (stepTimes step n) (Moves.Times leads n) := by
  intro places j
  rw [stepTimes_eq]
  induction n generalizing places with
  | zero => simp [Moves.Times]
  | succ n ih =>
    rw [Function.iterate_succ_apply, ih]
    simp only [h places, Moves.Times]
    constructor
    · rintro ⟨k, ⟨i, hi, hk⟩, hj⟩
      exact ⟨i, hi, k, hk, hj⟩
    · rintro ⟨i, hi, k, hk, hj⟩
      exact ⟨k, ⟨i, hi, hk⟩, hj⟩

/-- Of the places that were seen, those in front are the only ones that can lead to new ones. -/
structure Frontier (leads : Nat → Nat → Prop) (seen front : Places) : Prop where
  subset : ∀ i, Nat.testBit front i = true → Nat.testBit seen i = true
  leads : ∀ i j, Nat.testBit seen i = true → leads i j →
    Nat.testBit seen j = true ∨ ∃ k, Nat.testBit front k = true ∧ leads k j

variable {seen front : Places}

/-- After one more step, the new places are in front. -/
theorem Frontier.advance (hfrontier : Frontier leads seen front) (h : Follows step leads) :
    Frontier leads (seen ||| without (step front) seen) (without (step front) seen) := by
  constructor <;> simp only [Nat.testBit_or, Bool.or_eq_true]
  · exact fun i hi => .inr hi
  · rintro i j (hi | hi) hj
    · rcases hfrontier.leads i j hi hj with hseen | hfront
      · exact .inl (.inl hseen)
      · by_cases hseen : Nat.testBit seen j = true
        · exact .inl (.inl hseen)
        · exact .inl (.inr ((testBit_without _ _ _).2 ⟨(h front j).2 hfront, hseen⟩))
    · exact .inr ⟨i, hi, hj⟩

/-- If nothing new was found, what was seen leads nowhere else. -/
theorem Frontier.closed (hfrontier : Frontier leads seen front) (h : Follows step leads)
    (hnew : without (step front) seen = 0) {n i j : Nat} (hi : Nat.testBit seen i = true)
    (hj : Moves.Times leads n i j) : Nat.testBit seen j = true := by
  induction n generalizing i with
  | zero => exact hj ▸ hi
  | succ n ih =>
    obtain ⟨k, hk, hj⟩ := hj
    refine ih ?_ hj
    rcases hfrontier.leads i k hi hk with hseen | hfront
    · exact hseen
    · by_contra hseen
      have hbit := (testBit_without (step front) seen k).2 ⟨(h front k).2 hfront, hseen⟩
      simp [hnew] at hbit

/-- Optional steps get to the places that are at most that many moves away. -/
theorem testBit_stepUpTo (h : Follows step leads) (hfrontier : Frontier leads seen front) (n j : Nat) :
    Nat.testBit (stepUpTo step n seen front) j = true ↔
      ∃ m ≤ n, ∃ i, Nat.testBit seen i = true ∧ Moves.Times leads m i j := by
  induction n generalizing seen front with
  | zero => simp [stepUpTo, Moves.Times]
  | succ n ih =>
    rw [stepUpTo]
    split
    · next hnew =>
      constructor
      · exact fun hj => ⟨0, Nat.zero_le _, j, hj, rfl⟩
      · rintro ⟨m, -, i, hi, hj⟩
        exact hfrontier.closed h hnew hi hj
    · have hadvance := hfrontier.advance h
      rw [ih hadvance]
      constructor
      · rintro ⟨m, hm, i, hi, hj⟩
        rw [Nat.testBit_or, Bool.or_eq_true] at hi
        rcases hi with hi | hi
        · exact ⟨m, Nat.le_succ_of_le hm, i, hi, hj⟩
        · obtain ⟨k, hk, hki⟩ := (h front i).1 ((testBit_without _ _ _).1 hi).1
          exact ⟨m + 1, Nat.succ_le_succ hm, k, hfrontier.subset k hk, i, hki, hj⟩
      · rintro ⟨m, hm, i, hi, hj⟩
        cases m with
        | zero => exact ⟨0, Nat.zero_le _, i, by simp [hi], hj⟩
        | succ m =>
          obtain ⟨k, hk, hj⟩ := hj
          refine ⟨m, Nat.le_of_succ_le_succ hm, k, ?_, hj⟩
          rw [Nat.testBit_or, Bool.or_eq_true]
          by_cases hseen : Nat.testBit seen k = true
          · exact .inl hseen
          · have hfront := (hfrontier.leads i k hi hk).resolve_left hseen
            exact .inr ((testBit_without _ _ _).2 ⟨(h front k).2 hfront, hseen⟩)

end Places

/-! ### Moves -/

namespace Moves

open Places

theorem times_add {leads : Nat → Nat → Prop} {n m i j : Nat} :
    Times leads (n + m) i j ↔ ∃ k, Times leads n i k ∧ Times leads m k j := by
  induction n generalizing i with
  | zero => simp [Times]
  | succ n ih =>
    rw [Nat.add_right_comm]
    simp only [Times, ih]
    constructor
    · rintro ⟨k, hk, l, hl, hj⟩
      exact ⟨l, ⟨k, hk, hl⟩, hj⟩
    · rintro ⟨l, ⟨k, hk, hl⟩, hj⟩
      exact ⟨k, hk, l, hl, hj⟩

/-- A set of places is followed place by place. -/
theorem follows_reach (moves : Moves) : Follows moves.reach moves.Leads := by
  induction moves with
  | stay here =>
    intro places j
    simp [reach, Leads]
  | step passed =>
    intro places j
    rw [reach, Nat.testBit_shiftLeft, Bool.and_eq_true, Nat.testBit_and, Bool.and_eq_true]
    constructor
    · rintro ⟨hj, hplaces, hpassed⟩
      exact ⟨j - 1, hplaces, Nat.sub_add_cancel (of_decide_eq_true hj), hpassed⟩
    · rintro ⟨i, hplaces, rfl, hpassed⟩
      exact ⟨by simp, hplaces, hpassed⟩
  | both first second ihfirst ihsecond =>
    intro places j
    rw [reach, ihsecond]
    simp only [ihfirst places, Leads]
    constructor
    · rintro ⟨k, ⟨i, hi, hk⟩, hj⟩
      exact ⟨i, hi, k, hk, hj⟩
    · rintro ⟨i, hi, k, hk, hj⟩
      exact ⟨k, ⟨i, hi, hk⟩, hj⟩
  | either first second ihfirst ihsecond =>
    intro places j
    rw [reach, Nat.testBit_or, Bool.or_eq_true, ihfirst, ihsecond]
    simp only [Leads, and_or_left, exists_or]
  | repeated body times further ih =>
    intro places j
    have hfrontier : ∀ start, Frontier body.Leads start start := fun start =>
      ⟨fun _ hi => hi, fun i _ hi hj => .inr ⟨i, hi, hj⟩⟩
    rw [reach, testBit_stepUpTo ih (hfrontier _)]
    simp only [ih.stepTimes times places, Leads]
    constructor
    · rintro ⟨m, hm, k, ⟨i, hi, hk⟩, hj⟩
      exact ⟨i, hi, times + m, Nat.le_add_right _ _, Nat.add_le_add_left hm _, times_add.2 ⟨k, hk, hj⟩⟩
    · rintro ⟨i, hi, n, hleast, hmost, hj⟩
      obtain ⟨m, rfl⟩ := Nat.exists_eq_add_of_le hleast
      obtain ⟨k, hk, hj⟩ := times_add.1 hj
      exact ⟨m, Nat.le_of_add_le_add_left hmost, k, ⟨i, hi, hk⟩, hj⟩

end Moves

/-- A pattern is found in a text if it leads from some place of the text to another one. -/
theorem Pattern.found_iff_leads (pattern : Pattern) (s : String) :
    pattern.found s = true ↔
      ∃ i j, i ≤ s.toList.length ∧ (pattern.moves s.toList).Leads i j := by
  have hfollows := (pattern.moves s.toList).follows_reach (Places.all s.toList.length)
  simp only [Places.testBit_all, decide_eq_true_eq] at hfollows
  rw [found, bne_iff_ne]
  constructor
  · intro hne
    have hbits := mt Nat.zero_of_testBit_eq_false hne
    simp only [not_forall, Bool.not_eq_false] at hbits
    obtain ⟨j, hj⟩ := hbits
    obtain ⟨i, hi, hleads⟩ := (hfollows j).1 hj
    exact ⟨i, j, hi, hleads⟩
  · rintro ⟨i, j, hi, hleads⟩ hzero
    have hj := (hfollows j).2 ⟨i, hi, hleads⟩
    simp [hzero] at hj

end DocQuery
