import DocQuery.Proofs.Text.CaseRuns
import DocQuery.Text.Alphanumeric

/-!
# Letters and numbers in lower case

The lower-case form of a letter or a number is a letter or a number again, and its own lower-case form
(`exists_lowerChar_eq`).  There is one exception: the capital I with a dot above becomes an `i` and a combining
dot, and the dot is no letter.
-/

namespace DocQuery.Text

/-! ### Whole ranges -/

/-- All points from `first` to `last` are in one range.  (Written with the operations that the kernel computes
with.) -/
def Ranges.covers (first last : Nat) : Ranges → Bool
  | [] => false
  | [start] => Nat.ble start first
  | start :: stop :: rest =>
    Nat.ble start first && (Nat.blt last stop || Nat.ble stop first && covers first last rest)

theorem Ranges.contains_of_covers {ranges : Ranges} {first last c : Nat}
    (h : covers first last ranges = true) (hfirst : first ≤ c) (hlast : c ≤ last) :
    ranges.contains c = true := by
  fun_induction covers first last ranges with
  | case1 => cases h
  | case2 start => exact decide_eq_true ((Nat.ble_eq.mp h).trans hfirst)
  | case3 start stop rest ih =>
    simp only [Bool.and_eq_true, Bool.or_eq_true, Nat.ble_eq, Nat.blt_eq] at h
    obtain ⟨hstart, hstop⟩ := h
    rw [contains, if_neg (Nat.not_lt_of_le (hstart.trans hfirst))]
    rcases hstop with hstop | ⟨hstop, hrest⟩
    · rw [if_pos (hlast.trans_lt hstop)]
    · rw [if_neg (Nat.not_lt_of_le (hstop.trans hfirst))]
      exact ih hrest

/-! ### The table -/

theorem settled_lowercaseRuns : Settled lowercaseRuns where
  before := List.isChain_iff_pairwise.1 (by decide +kernel)
  nonneg := by decide +kernel
  clear := by decide +kernel

theorem covers_lowercaseRuns :
    (lowercaseRuns.all fun run => alphanumericRanges.covers run.firstForm run.lastForm) = true := by
  decide +kernel

theorem bounds_lowercaseRuns : ∀ run ∈ lowercaseRuns,
    run.lastForm < 0x130 ∨ 0x130 < run.firstForm ∧ (run.lastForm < 0xd800 ∨
      0xdfff < run.firstForm ∧ run.lastForm < 0x110000) := by
  decide +kernel

/-- A run leads to a letter or a number, which is not the capital I with a dot above. -/
theorem applyRuns_lowercaseRuns_cases (n : Nat) : applyRuns lowercaseRuns n = n ∨
    (applyRuns lowercaseRuns n).isValidChar ∧ applyRuns lowercaseRuns n ≠ 0x130 ∧
      alphanumericRanges.contains (applyRuns lowercaseRuns n) = true := by
  refine (applyRuns_cases lowercaseRuns n).imp_right ?_
  rintro ⟨run, hrun, himage⟩
  obtain ⟨hfirst, hlast⟩ := image?_bounds himage
  have hbounds := bounds_lowercaseRuns run hrun
  have hcovers := List.all_eq_true.1 covers_lowercaseRuns run hrun
  refine ⟨?_, ?_, Ranges.contains_of_covers hcovers hfirst hlast⟩
  · rw [Nat.isValidChar]
    omega
  · omega

/-! ### Characters -/

/-- The capital I with a dot above, whose lower-case form is no single character. -/
abbrev dottedI : Char := '\u0130'

/-- The dot above a letter, which is no letter of its own. -/
abbrev dotAbove : Char := '\u0307'

/-- A letter or a number in lower case. -/
structure IsLower (c : Char) : Prop where
  alphanumeric : isAlphanumeric c = true
  unchanged : lowerChar c = [c]

theorem isLower_i : IsLower 'i' := ⟨by decide, by decide⟩

theorem isAlphanumeric_dottedI : isAlphanumeric dottedI = true := by decide

theorem not_isAlphanumeric_dotAbove : ¬isAlphanumeric dotAbove = true := by decide

theorem lowerChar_dottedI : lowerChar dottedI = ['i', dotAbove] := rfl

variable {c : Char}

theorem exists_lowerChar_of_ne (hc : c ≠ dottedI) :
    ∃ form, lowerChar c = [form] ∧ form.toNat = applyRuns lowercaseRuns c.toNat := by
  refine ⟨_, if_neg hc, ?_⟩
  rcases applyRuns_lowercaseRuns_cases c.toNat with hsame | ⟨hvalid, -, -⟩
  · rw [hsame, Char.ofNat_toNat]
  · rw [Char.ofNat, dif_pos hvalid]
    rfl

/-- The other letters and numbers have a lower-case form that is a single letter or number. -/
theorem exists_lowerChar_eq (hc : c ≠ dottedI) (halpha : isAlphanumeric c = true) :
    ∃ form, lowerChar c = [form] ∧ IsLower form := by
  obtain ⟨form, hlower, hform⟩ := exists_lowerChar_of_ne hc
  refine ⟨form, hlower, ?_⟩
  rcases applyRuns_lowercaseRuns_cases c.toNat with hsame | ⟨-, hne, hletter⟩
  · obtain rfl : form = c := Char.toNat_inj.1 (hform.trans hsame)
    exact ⟨halpha, hlower⟩
  · have hdot : form ≠ dottedI := fun heq => hne (hform.symm.trans (congrArg Char.toNat heq))
    obtain ⟨again, hagain, hsame⟩ := exists_lowerChar_of_ne hdot
    rw [hform, applyRuns_applyRuns settled_lowercaseRuns, ← hform, Char.toNat_inj] at hsame
    exact ⟨by rwa [isAlphanumeric, hform], hsame ▸ hagain⟩

/-- The lower-case form of a letter or a number begins with one. -/
theorem exists_lowerChar_eq_cons (halpha : isAlphanumeric c = true) :
    ∃ form rest, lowerChar c = form :: rest ∧ IsLower form := by
  by_cases hc : c = dottedI
  · exact ⟨'i', [dotAbove], hc ▸ lowerChar_dottedI, isLower_i⟩
  · obtain ⟨form, hlower, hform⟩ := exists_lowerChar_eq hc halpha
    exact ⟨form, [], hlower, hform⟩

end DocQuery.Text
