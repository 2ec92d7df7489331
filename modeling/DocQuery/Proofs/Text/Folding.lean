import DocQuery.Proofs.Text.CaseRuns
import DocQuery.Text.Folding

/-!
# Case folding is an equivalence

Characters differ only by case if they have the same folded form.  A folded form is its own folded form
(`fold_fold`), and the case variants of a character are all those that share its form
(`mem_caseVariants_iff`).  Both rest on what is checked of the table (`settled_foldRuns`).
-/

namespace DocQuery.Text

variable {run : CaseRun} {c form : Nat}

/-! ### The table -/

theorem settled_foldRuns : Settled foldRuns where
  before := List.isChain_iff_pairwise.1 (by decide +kernel)
  nonneg := by decide +kernel
  clear := by decide +kernel

/-- A folded form is its own folded form. -/
theorem fold_fold (c : Nat) : fold (fold c) = fold c := applyRuns_applyRuns settled_foldRuns c

theorem mem_sources_iff {d : Nat} (hrun : 0 ≤ run.first + run.distance) :
    d ∈ run.sources form ↔ run.image? d = some form := by
  rw [CaseRun.sources]
  constructor
  · intro h
    split at h
    · next himage =>
      obtain rfl := List.mem_singleton.1 h
      exact beq_iff_eq.1 himage
    · cases h
  · intro h
    have hsource : Int.toNat (form - run.distance) = d := by
      obtain ⟨⟨hfirst, -, -⟩, rfl⟩ := image?_eq_some_iff.1 h
      omega
    simp only [hsource, h, beq_self_eq_true, if_true, List.mem_singleton]

/-- The case variants of a code point are those that share its folded form. -/
theorem mem_caseVariants_iff {d : Nat} : d ∈ caseVariants c ↔ fold d = fold c := by
  rw [caseVariants, List.mem_cons, List.mem_flatMap]
  constructor
  · rintro (rfl | ⟨run, hrun, hsource⟩)
    · exact fold_fold c
    · rw [mem_sources_iff (settled_foldRuns.nonneg run hrun)] at hsource
      exact applyRuns_of_image settled_foldRuns.before hrun hsource
  · intro h
    rcases applyRuns_cases foldRuns d with hsame | ⟨run, hrun, himage⟩
    · exact .inl (hsame.symm.trans h)
    · refine .inr ⟨run, hrun, (mem_sources_iff (settled_foldRuns.nonneg run hrun)).2 ?_⟩
      rw [himage, ← h]
      rfl

/-! ### Texts -/

/-- The characters of a text, without regard to case. -/
def folded (s : String) : List Nat := s.toList.map fun c => fold c.toNat

/-- A text contains another one, without regard to case. -/
def Contains (s other : String) : Prop := folded other <:+: folded s

instance (s other : String) : Decidable (Contains s other) :=
  inferInstanceAs (Decidable (folded other <:+: folded s))

end DocQuery.Text
