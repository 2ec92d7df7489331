import DocQuery.Text.Lowercase
import Mathlib.Data.List.Chain

/-!
# Runs of code points that differ by case

A list of runs gives every code point a form: a run leads away from the code points that it means, and all others
stay as they are (`applyRuns_cases`).  If the runs stand apart in ascending order, none of them leads below zero,
and none of them leads into a run again (`Settled`), then every form is its own form (`applyRuns_applyRuns`).
-/

namespace DocQuery.Text

variable {run : CaseRun} {runs : List CaseRun} {c form : Nat}

theorem image?_eq_some_iff : run.image? c = some form ↔
    (run.first ≤ c ∧ c ≤ run.last ∧ (c - run.first) % run.step = 0) ∧
      Int.toNat (c + run.distance) = form := by
  simp [CaseRun.image?, and_assoc]

theorem image?_eq_none (h : c < run.first ∨ run.last < c ∨ (c - run.first) % run.step ≠ 0) :
    run.image? c = none := by
  rw [Option.eq_none_iff_forall_ne_some]
  intro form hform
  obtain ⟨⟨hfirst, hlast, hstep⟩, -⟩ := image?_eq_some_iff.1 hform
  rcases h with h | h | h
  · exact absurd hfirst (Nat.not_le_of_lt h)
  · exact absurd hlast (Nat.not_le_of_lt h)
  · exact h hstep

/-- A code point stays as it is, or some run leads away from it. -/
theorem applyRuns_cases (runs : List CaseRun) (c : Nat) :
    applyRuns runs c = c ∨ ∃ run ∈ runs, run.image? c = some (applyRuns runs c) := by
  induction runs with
  | nil => exact .inl rfl
  | cons run rest ih =>
    rw [applyRuns]
    split
    · exact .inl rfl
    · cases himage : run.image? c with
      | some form => exact .inr ⟨run, List.mem_cons_self, himage⟩
      | none => exact ih.imp_right fun ⟨other, hmem, h⟩ => ⟨other, List.mem_cons_of_mem run hmem, h⟩

theorem applyRuns_of_none (h : ∀ run ∈ runs, run.image? c = none) : applyRuns runs c = c := by
  rcases applyRuns_cases runs c with heq | ⟨run, hrun, himage⟩
  · exact heq
  · rw [h run hrun] at himage
    cases himage

/-- A run stands in front of another one. -/
abbrev CaseRun.Before (run other : CaseRun) : Prop := run.first ≤ run.last ∧ run.last < other.first

instance : IsTrans CaseRun CaseRun.Before where
  trans _ _ _ h h' := ⟨h.1, h.2.trans (h'.1.trans_lt h'.2)⟩

/-- No other run stands where one of several ascending runs leads away. -/
theorem applyRuns_of_image (hruns : runs.Pairwise CaseRun.Before) (hrun : run ∈ runs)
    (h : run.image? c = some form) : applyRuns runs c = form := by
  obtain ⟨⟨hfirst, -, -⟩, -⟩ := image?_eq_some_iff.1 h
  induction runs with
  | nil => cases hrun
  | cons head rest ih =>
    obtain ⟨hbefore, hrest⟩ := List.pairwise_cons.1 hruns
    rw [applyRuns]
    rcases List.mem_cons.1 hrun with rfl | hrun
    · rw [if_neg (Nat.not_lt_of_le hfirst), h]
      rfl
    · obtain ⟨hhead, hlast⟩ := hbefore run hrun
      have hbehind : head.last < c := hlast.trans_le hfirst
      rw [if_neg (Nat.not_lt_of_le (hhead.trans hbehind.le)), image?_eq_none (.inr (.inl hbehind))]
      exact ih hrest hrun

/-- None of some ascending runs holds a point from `first` to `last`; if every second point is meant, they may
hold the ones between.  (Written with the operations that the kernel computes with.) -/
def clearOf (first last : Nat) (second : Bool) : List CaseRun → Bool
  | [] => true
  | run :: rest =>
    Nat.blt last run.first ||
      (Nat.blt run.last first ||
          (second && Nat.beq run.step 2 && Nat.beq ((first + run.first) % 2) 1)) &&
        clearOf first last second rest

theorem image?_eq_none_of_clearOf {first last : Nat} {second : Bool}
    (hruns : runs.Pairwise CaseRun.Before) (h : clearOf first last second runs = true)
    (hfirst : first ≤ c) (hlast : c ≤ last) (hsecond : second = true → (c - first) % 2 = 0) :
    ∀ run ∈ runs, run.image? c = none := by
  induction runs with
  | nil => simp
  | cons run rest ih =>
    obtain ⟨hbefore, hrest⟩ := List.pairwise_cons.1 hruns
    simp only [clearOf, Bool.or_eq_true, Bool.and_eq_true, Nat.blt_eq, Nat.beq_eq] at h
    rcases h with hfront | ⟨hrun, h⟩
    · have hin : ∀ other ∈ rest, c < other.first := fun other hother => by
        have := hbefore other hother
        omega
      refine List.forall_mem_cons.2 ⟨image?_eq_none (.inl (hlast.trans_lt hfront)), ?_⟩
      exact fun other hother => image?_eq_none (.inl (hin other hother))
    · refine List.forall_mem_cons.2 ⟨image?_eq_none ?_, ih hrest h⟩
      rcases hrun with hbehind | ⟨⟨htwo, hstep⟩, hodd⟩
      · exact .inr (.inl (hbehind.trans_le hfirst))
      · have heven := hsecond htwo
        by_cases hin : c < run.first
        · exact .inl hin
        · exact .inr (.inr (by rw [hstep]; omega))

/-! ### Forms -/

/-- The form of the first code point of a run. -/
def CaseRun.firstForm (run : CaseRun) : Nat := Int.toNat (run.first + run.distance)

/-- The form of the last code point of a run. -/
def CaseRun.lastForm (run : CaseRun) : Nat := Int.toNat (run.last + run.distance)

theorem image?_bounds (h : run.image? c = some form) : run.firstForm ≤ form ∧ form ≤ run.lastForm := by
  obtain ⟨⟨hfirst, hlast, -⟩, rfl⟩ := image?_eq_some_iff.1 h
  exact ⟨Int.toNat_le_toNat (by omega), Int.toNat_le_toNat (by omega)⟩

/-- The runs stand apart, and where one of them leads, none of them stands. -/
structure Settled (runs : List CaseRun) : Prop where
  before : runs.Pairwise CaseRun.Before
  nonneg : ∀ run ∈ runs, 0 ≤ run.first + run.distance
  clear : (runs.all fun run =>
    clearOf run.firstForm run.lastForm (Nat.beq run.step 2 || Nat.beq run.first run.last) runs) = true

theorem Settled.image?_image? (hruns : Settled runs) (hrun : run ∈ runs) (h : run.image? c = some form) :
    ∀ other ∈ runs, other.image? form = none := by
  obtain ⟨hfirst, hlast⟩ := image?_bounds h
  obtain ⟨⟨hstart, hstop, hstep⟩, rfl⟩ := image?_eq_some_iff.1 h
  have hnonneg := hruns.nonneg run hrun
  refine image?_eq_none_of_clearOf hruns.before (List.all_eq_true.1 hruns.clear run hrun) hfirst hlast ?_
  intro hsecond
  rw [Bool.or_eq_true, Nat.beq_eq, Nat.beq_eq] at hsecond
  rw [CaseRun.firstForm]
  rcases hsecond with htwo | hone
  · rw [htwo] at hstep
    omega
  · omega

/-- A form is its own form. -/
theorem applyRuns_applyRuns (hruns : Settled runs) (c : Nat) :
    applyRuns runs (applyRuns runs c) = applyRuns runs c := by
  rcases applyRuns_cases runs c with hsame | ⟨run, hrun, himage⟩
  · rw [hsame, hsame]
  · exact applyRuns_of_none (hruns.image?_image? hrun himage)

end DocQuery.Text
