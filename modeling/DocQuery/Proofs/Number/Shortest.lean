import DocQuery.Proofs.Number.Spacing

/-!
# The shortest decimal reads back

The interval of a number holds the decimals that are rounded to it (`Double.holds_interval_iff`).  On a
grid of decimals that is finer than the interval one of the two neighbours is inside, and with seventeen
digits the grid is finer: below a power of two, where the interval is narrowest for its place, the
number has the fewest digits.  So the search always ends inside, and the shortest decimal is rounded to
the number that it was written for (`Double.shortest_roundsTo`).
-/

namespace DocQuery.Double

variable {digits : Nat} {exponent : Int} {tie : Tie}

/-! ### Powers of ten as quotients -/

/-- What a power of ten multiplies. -/
def raised (exponent : Int) : Nat := if 0 ≤ exponent then tenTo exponent.toNat else 1

/-- What a power of ten divides. -/
def lowered (exponent : Int) : Nat := if 0 ≤ exponent then 1 else tenTo (-exponent).toNat

theorem raised_pos (exponent : Int) : 0 < raised exponent := by
  unfold raised
  split
  · exact tenTo_pos _
  · exact Nat.one_pos

theorem lowered_pos (exponent : Int) : 0 < lowered exponent := by
  unfold lowered
  split
  · exact Nat.one_pos
  · exact tenTo_pos _

theorem ten_zpow_eq (exponent : Int) : (10 : ℚ) ^ exponent = raised exponent / lowered exponent := by
  unfold raised lowered
  split
  · next h =>
    rw [cast_tenTo, Nat.cast_one, div_one, ← zpow_natCast, Int.toNat_of_nonneg h]
  · next h =>
    rw [cast_tenTo, Nat.cast_one, one_div, ← zpow_natCast, Int.toNat_of_nonneg (by omega), zpow_neg,
      inv_inv]

/-! ### Grids of decimals -/

namespace Interval

variable {i : Interval}

theorem holds_eq (i : Interval) (digits : Nat) (exponent : Int) : i.holds digits exponent =
    if i.closed then
      decide (i.lower * lowered exponent ≤ digits * raised exponent * i.den) &&
        decide (digits * raised exponent * i.den ≤ i.upper * lowered exponent)
    else
      decide (i.lower * lowered exponent < digits * raised exponent * i.den) &&
        decide (digits * raised exponent * i.den < i.upper * lowered exponent) := by
  unfold holds raised lowered
  by_cases h : 0 ≤ exponent <;> simp [h]

/-- The interval in rational numbers. -/
theorem holds_iff (hden : 0 < i.den) : i.holds digits exponent = true ↔
    if i.closed then (i.lower / i.den : ℚ) ≤ digits * 10 ^ exponent ∧
      (digits * 10 ^ exponent : ℚ) ≤ i.upper / i.den
    else (i.lower / i.den : ℚ) < digits * 10 ^ exponent ∧
      (digits * 10 ^ exponent : ℚ) < i.upper / i.den := by
  have hdenq : (0 : ℚ) < i.den := by exact_mod_cast hden
  have hscale : (0 : ℚ) < lowered exponent := by exact_mod_cast lowered_pos exponent
  have hle : ∀ a : Nat, (a * lowered exponent ≤ digits * raised exponent * i.den ↔
        (a / i.den : ℚ) ≤ digits * 10 ^ exponent) ∧
      (digits * raised exponent * i.den ≤ a * lowered exponent ↔
        (digits * 10 ^ exponent : ℚ) ≤ a / i.den) := by
    intro a
    rw [ten_zpow_eq, mul_div_assoc', div_le_div_iff₀ hdenq hscale, div_le_div_iff₀ hscale hdenq]
    exact ⟨by exact_mod_cast Iff.rfl, by exact_mod_cast Iff.rfl⟩
  rw [holds_eq]
  split
  · simp only [Bool.and_eq_true, decide_eq_true_eq, (hle i.lower).1, (hle i.upper).2]
  · simp only [Bool.and_eq_true, decide_eq_true_eq, ← not_le, (hle i.lower).2, (hle i.upper).1]

theorem holds_of_inside (hden : 0 < i.den) (hlower : (i.lower / i.den : ℚ) < digits * 10 ^ exponent)
    (hupper : (digits * 10 ^ exponent : ℚ) < i.upper / i.den) : i.holds digits exponent = true := by
  rw [holds_iff hden]
  split
  · exact ⟨hlower.le, hupper.le⟩
  · exact ⟨hlower, hupper⟩

/-- The neighbours of the number on a grid. -/
theorem floor_spec (hden : 0 < i.den) (exponent : Int) :
    ((i.floor exponent).1 * 10 ^ exponent : ℚ) ≤ i.middle / i.den ∧
      (i.middle / i.den : ℚ) < ((i.floor exponent).1 + 1) * 10 ^ exponent := by
  have hfloor : (i.floor exponent).1 = i.middle * lowered exponent / (i.den * raised exponent) := by
    unfold floor raised lowered
    by_cases h : 0 ≤ exponent <;> simp [h]
  have hpos : 0 < i.den * raised exponent := Nat.mul_pos hden (raised_pos exponent)
  have hdenq : (0 : ℚ) < i.den := by exact_mod_cast hden
  have hscale : (0 : ℚ) < lowered exponent := by exact_mod_cast lowered_pos exponent
  have hlow := Nat.div_mul_le_self (i.middle * lowered exponent) (i.den * raised exponent)
  have hhigh := Nat.lt_mul_div_succ (i.middle * lowered exponent) hpos
  rw [← hfloor] at hlow hhigh
  rw [ten_zpow_eq, mul_div_assoc', mul_div_assoc', div_le_div_iff₀ hscale hdenq,
    div_lt_div_iff₀ hdenq hscale]
  constructor
  · exact_mod_cast (by linarith : (i.floor exponent).1 * raised exponent * i.den ≤ _)
  · exact_mod_cast (by linarith : _ < ((i.floor exponent).1 + 1) * raised exponent * i.den)

/-- What is found on a grid is inside. -/
theorem holds_of_onGrid {found : Nat × Int} (h : i.onGrid tie exponent = some found) :
    i.holds found.1 found.2 = true := by
  unfold onGrid at h
  dsimp only at h
  split at h
  · cases h
  · next hlow _ => cases h; exact hlow
  · next _ hhigh => cases h; exact hhigh
  · next hlow hhigh =>
    split at h
    · cases h; exact hlow
    · cases h; exact hhigh
    · cases h
      dsimp only
      split
      · exact hlow
      · exact hhigh

theorem onGrid_isSome_of_holds (h : i.holds (i.floor exponent).1 exponent = true ∨
    i.holds ((i.floor exponent).1 + 1) exponent = true) : (i.onGrid tie exponent).isSome = true := by
  unfold onGrid
  dsimp only
  split
  · next hnot hnext => simp [hnot, hnext] at h
  · rfl
  · rfl
  · split <;> rfl

/-- On a grid that is finer than the interval a neighbour is inside. -/
theorem onGrid_isSome (hden : 0 < i.den) (tie : Tie) (hlower : (i.lower / i.den : ℚ) < i.middle / i.den)
    (hupper : (i.middle / i.den : ℚ) < i.upper / i.den)
    (hstep : (10 : ℚ) ^ exponent < i.upper / i.den - i.lower / i.den) :
    (i.onGrid tie exponent).isSome = true := by
  obtain ⟨hlow, hhigh⟩ := i.floor_spec hden exponent
  apply onGrid_isSome_of_holds
  by_cases hinside : (i.lower / i.den : ℚ) < (i.floor exponent).1 * 10 ^ exponent
  · exact .inl (holds_of_inside hden hinside (by linarith))
  · refine .inr (holds_of_inside hden ?_ ?_) <;>
    · push_cast
      linarith

/-- The search ends inside if one of its grids has a neighbour inside. -/
theorem holds_search {grids steps : Nat} (hsteps : steps < grids)
    (h : (i.onGrid tie (exponent - steps)).isSome = true) :
    i.holds (i.search tie grids exponent).1 (i.search tie grids exponent).2 = true := by
  induction grids generalizing exponent steps with
  | zero => omega
  | succ grids ih =>
    rw [search]
    cases hfound : i.onGrid tie exponent with
    | some found => exact holds_of_onGrid hfound
    | none =>
      cases steps with
      | zero => simp [hfound] at h
      | succ steps =>
        refine ih (show steps < grids by omega) ?_
        rw [show exponent - 1 - steps = exponent - (steps + 1 : Nat) by omega]
        exact h

end Interval

/-! ### The first digit -/

theorem pow_digitCount_le {n : Nat} (hn : 0 < n) : tenTo (digitCount n - 1) ≤ n := by
  have hpos : 0 < digitCount n := Nat.length_toDigits_pos
  rcases Nat.eq_or_lt_of_le hpos with hone | hmore
  · rw [← hone]
    exact hn
  · by_contra hlt
    have := (Nat.length_toDigits_le_iff (b := 10) (n := n) (k := digitCount n - 1) (by decide)
      (by omega)).2
      (not_le.1 hlt)
    unfold digitCount at *
    omega

theorem lt_pow_digitCount (n : Nat) : n < tenTo (digitCount n) :=
  (Nat.length_toDigits_le_iff (by decide) Nat.length_toDigits_pos).1 le_rfl

/-- A quotient is not below the power of ten of its leading exponent. -/
theorem leadingExponent_le {num den : Nat} (hnum : 0 < num) (hden : 0 < den) :
    (10 : ℚ) ^ leadingExponent num den ≤ num / den := by
  have hdenq : (0 : ℚ) < den := by exact_mod_cast hden
  have hnumq : (0 : ℚ) < num := by exact_mod_cast hnum
  unfold leadingExponent
  split
  · next hle =>
    have hquot : 0 < num / den := Nat.div_pos hle hden
    have hpower := pow_digitCount_le hquot
    have hcount : 0 < digitCount (num / den) := Nat.length_toDigits_pos
    rw [show (digitCount (num / den) : Int) - 1 = (digitCount (num / den) - 1 : Nat) by omega, zpow_natCast,
      ← cast_tenTo, le_div_iff₀ hdenq]
    exact_mod_cast (Nat.le_div_iff_mul_le hden).1 hpower
  · next hlt =>
    -- the reciprocal is at most one above what the digits are counted of
    have hpower := lt_pow_digitCount ((den + num - 1) / num - 1)
    have hceil : den ≤ (den + num - 1) / num * num := by
      have hquot := Nat.div_add_mod (den + num - 1) num
      have hrem := Nat.mod_lt (den + num - 1) hnum
      rw [Nat.mul_comm] at hquot
      omega
    rw [zpow_neg, zpow_natCast, ← cast_tenTo,
      inv_le_comm₀ (by exact_mod_cast tenTo_pos _) (by positivity), inv_div,
      div_le_iff₀ hnumq]
    have hfinal : den ≤ tenTo (digitCount ((den + num - 1) / num - 1)) * num := by
      refine hceil.trans (Nat.mul_le_mul_right num ?_)
      omega
    exact_mod_cast hfinal

/-! ### The interval of a number -/

variable {x : Double}

theorem significand_pos (h : x.sizeWord ≠ 0) : 0 < x.significand := by
  have htwo := twoTo_pos 52
  unfold significand
  split <;> omega

theorem den_interval_pos (x : Double) : 0 < x.interval.den := by
  unfold interval
  dsimp only
  split
  · exact Nat.one_pos
  · exact twoTo_pos _

/-- The digits and the exponent of a number are those of its word. -/
theorem sizeValue_sizeWord (x : Double) : sizeValue x.sizeWord = x.significand * 2 ^ x.exponent := rfl

/-- Whether the word in front of a word belongs to a lower exponent. -/
theorem exponentOf_succ (s : Nat) : exponentOf (s + 1) =
    exponentOf s + if (s + 1) % twoTo 52 = 0 ∧ twoTo 53 ≤ s + 1 then 1 else 0 := by
  have htwo : twoTo 52 = 4503599627370496 := by decide
  have hnext : twoTo 53 = 9007199254740992 := by decide
  simp only [exponentOf, htwo, hnext]
  split <;> split <;> split <;> omega

/-- Quarters of the last binary digit, as the interval writes them. -/
theorem quarters_eq (quarters : Nat) (unit : Int) :
    (((quarters * if 0 ≤ unit then twoTo unit.toNat else 1 : Nat) : ℚ) /
      (if 0 ≤ unit then 1 else twoTo (-unit).toNat : Nat)) = quarters * 2 ^ unit := by
  split
  · next h =>
    rw [Nat.cast_mul, cast_twoTo, Nat.cast_one, div_one, ← zpow_natCast (2 : ℚ), Int.toNat_of_nonneg h]
  · next h =>
    rw [Nat.mul_one, cast_twoTo, div_eq_mul_inv, ← zpow_natCast (2 : ℚ), ← zpow_neg,
      Int.toNat_of_nonneg (by omega), neg_neg]

/-- The ends of the interval are the middles to the neighbours. -/
theorem interval_eq {before : Nat} (hbefore : before + 1 = x.sizeWord) :
    (x.interval.middle / x.interval.den : ℚ) = sizeValue x.sizeWord ∧
      (x.interval.lower / x.interval.den : ℚ) = (sizeValue before + sizeValue x.sizeWord) / 2 ∧
      (x.interval.upper / x.interval.den : ℚ) =
        (sizeValue x.sizeWord + sizeValue (x.sizeWord + 1)) / 2 := by
  have hpos := significand_pos (x := x) (by omega)
  have hunit : (2 : ℚ) ^ x.exponent = 4 * 2 ^ (x.exponent - 2) := by
    rw [zpow_sub₀ two_ne_zero]
    norm_num
    ring
  have hself : sizeValue x.sizeWord = 4 * x.significand * 2 ^ (x.exponent - 2) := by
    rw [sizeValue_sizeWord, hunit]
    ring
  refine ⟨?_, ?_, ?_⟩
  · rw [hself]
    exact (quarters_eq _ _).trans (by push_cast; ring)
  · have hbelow : sizeValue x.sizeWord = sizeValue before + 2 ^ exponentOf before := by
      rw [← hbefore, sizeValue_succ]
    have hexponent : x.exponent = exponentOf before +
        if x.sizeWord % twoTo 52 = 0 ∧ twoTo 53 ≤ x.sizeWord then 1 else 0 := by
      rw [← hbefore, ← exponentOf_succ, hbefore]
      rfl
    have hhalf : (sizeValue before + sizeValue x.sizeWord) / 2 =
        sizeValue x.sizeWord - 2 ^ exponentOf before / 2 := by
      rw [hbelow]
      ring
    refine (quarters_eq _ _).trans ?_
    rw [Nat.cast_sub (by split <;> omega), hhalf, hself]
    by_cases hboundary : x.sizeWord % twoTo 52 = 0 ∧ twoTo 53 ≤ x.sizeWord
    · rw [if_pos hboundary] at hexponent
      rw [if_pos (by simpa using hboundary), show exponentOf before = x.exponent - 2 + 1 by omega,
        zpow_add₀ two_ne_zero, zpow_one]
      push_cast
      ring
    · rw [if_neg hboundary, add_zero] at hexponent
      rw [if_neg (by simpa using hboundary), ← hexponent, hunit]
      push_cast
      ring
  · rw [sizeValue_succ, hself]
    refine (quarters_eq _ _).trans ?_
    rw [show exponentOf x.sizeWord = x.exponent from rfl, hunit]
    push_cast
    ring

/-- The interval holds the decimals that are rounded to the number. -/
theorem holds_interval_iff (h : x.sizeWord ≠ 0) : x.interval.holds digits exponent = true ↔
    RoundsTo (digits * 10 ^ exponent) x.sizeWord := by
  obtain ⟨before, hbefore⟩ : ∃ before, before + 1 = x.sizeWord := ⟨x.sizeWord - 1, by omega⟩
  obtain ⟨-, hlower, hupper⟩ := interval_eq hbefore
  have hclosed : x.interval.closed = (x.sizeWord % 2 == 0) := by
    have htwo : twoTo 52 = 4503599627370496 := by decide
    show (x.significand % 2 == 0) = (x.sizeWord % 2 == 0)
    rw [Bool.eq_iff_iff, beq_iff_eq, beq_iff_eq, significand, htwo]
    split <;> omega
  rw [Interval.holds_iff (den_interval_pos x), hlower, hupper, hclosed]
  constructor
  · intro hholds
    rcases Nat.mod_two_eq_zero_or_one x.sizeWord with heven | hodd
    · rw [heven] at hholds
      refine ⟨fun t ht => ?_, ?_, fun hodd => by omega, fun hodd => by omega⟩
      · obtain rfl : t = before := by omega
        linarith [hholds.1]
      · linarith [hholds.2]
    · rw [hodd] at hholds
      have hstrict : ∀ t, t + 1 = x.sizeWord →
          sizeValue t + sizeValue x.sizeWord < 2 * (digits * 10 ^ exponent) := fun t ht => by
        obtain rfl : t = before := by omega
        linarith [hholds.1]
      have hlast := hholds.2
      exact ⟨fun t ht => (hstrict t ht).le, by linarith, fun _ => hstrict, fun _ => by linarith⟩
  · intro hrounds
    split
    · exact ⟨by linarith [hrounds.lower before hbefore], by linarith [hrounds.upper]⟩
    · next hodd =>
      have hodd : x.sizeWord % 2 = 1 := by
        rw [beq_iff_eq] at hodd
        omega
      exact ⟨by linarith [hrounds.lower_odd hodd before hbefore], by linarith [hrounds.upper_odd hodd]⟩

theorem significand_lt (x : Double) : x.significand < twoTo 53 := by
  have htwo : twoTo 52 = 4503599627370496 := by decide
  have hnext : twoTo 53 = 9007199254740992 := by decide
  rw [significand, htwo, hnext]
  split <;> omega

/-- The interval is wide enough for sixteen digits behind the first one. -/
theorem width_interval (h : x.sizeWord ≠ 0) : (x.interval.middle / x.interval.den : ℚ) <
    (x.interval.upper / x.interval.den - x.interval.lower / x.interval.den) * 10 ^ 16 := by
  obtain ⟨before, hbefore⟩ : ∃ before, before + 1 = x.sizeWord := ⟨x.sizeWord - 1, by omega⟩
  obtain ⟨hmiddle, hlower, hupper⟩ := interval_eq hbefore
  obtain ⟨unit, hunit⟩ : ∃ unit : ℚ, unit = 2 ^ exponentOf before := ⟨_, rfl⟩
  have hpos : 0 < unit := hunit ▸ by positivity
  have hbelow : sizeValue x.sizeWord = sizeValue before + unit := by
    rw [← hbefore, sizeValue_succ, hunit]
  have hexponent := exponentOf_succ before
  rw [hbefore] at hexponent
  rw [hmiddle, hlower, hupper, sizeValue_succ]
  by_cases hboundary : x.sizeWord % twoTo 52 = 0 ∧ twoTo 53 ≤ x.sizeWord
  · -- a power of two: the interval is narrower below it
    have hdigits : x.significand = twoTo 52 := by
      have htwice : twoTo 53 = 2 * twoTo 52 := by decide
      rw [significand, if_neg (by omega), hboundary.1, Nat.add_zero]
    have hdouble : (2 : ℚ) ^ exponentOf x.sizeWord = 2 * unit := by
      rw [hexponent, if_pos hboundary, zpow_add₀ two_ne_zero, zpow_one, hunit, mul_comm]
    have hself : sizeValue x.sizeWord = twoTo 52 * (2 * unit) := by
      rw [sizeValue_sizeWord, hdigits, ← hdouble]
      rfl
    rw [cast_twoTo] at hself
    rw [hdouble]
    linarith
  · have hsame : (2 : ℚ) ^ exponentOf x.sizeWord = unit := by
      rw [hexponent, if_neg hboundary, add_zero, hunit]
    have hself : sizeValue x.sizeWord = x.significand * unit := by
      rw [sizeValue_sizeWord, ← hsame]
      rfl
    have hdigits : (x.significand : ℚ) < 2 ^ 53 := by
      rw [← cast_twoTo]
      exact_mod_cast significand_lt x
    rw [hsame]
    have hless : sizeValue x.sizeWord < 2 ^ 53 * unit := by
      rw [hself]
      exact mul_lt_mul_of_pos_right hdigits hpos
    linarith

/-- Seventeen digits are enough. -/
theorem holds_search_interval (h : x.sizeWord ≠ 0) (tie : Tie) :
    let found := x.interval.search tie 17 (leadingExponent x.interval.middle x.interval.den)
    x.interval.holds found.1 found.2 = true := by
  obtain ⟨before, hbefore⟩ : ∃ before, before + 1 = x.sizeWord := ⟨x.sizeWord - 1, by omega⟩
  obtain ⟨hmiddle, hlower, hupper⟩ := interval_eq hbefore
  have hden := den_interval_pos x
  have hless : sizeValue before < sizeValue x.sizeWord := sizeValue_strictMono (by omega)
  have hmore : sizeValue x.sizeWord < sizeValue (x.sizeWord + 1) := sizeValue_strictMono (by omega)
  have hnum : 0 < x.interval.middle := by
    have hpos : 0 ≤ sizeValue before := by unfold sizeValue; positivity
    rw [← hmiddle] at hless
    rw [Nat.pos_iff_ne_zero]
    intro hzero
    rw [hzero, Nat.cast_zero, zero_div] at hless
    linarith
  refine Interval.holds_search (show 16 < 17 by decide) (Interval.onGrid_isSome hden tie ?_ ?_ ?_)
  · rw [hlower, hmiddle]
    linarith
  · rw [hupper, hmiddle]
    linarith
  · have hwidth := width_interval h
    have hleading := leadingExponent_le hnum hden
    rw [zpow_sub₀ (by norm_num), div_lt_iff₀ (by positivity)]
    exact hleading.trans_lt (by exact_mod_cast hwidth)

theorem stripZeros_eq (fuel : Nat) (d : Nat × Int) :
    ((stripZeros fuel d).1 * 10 ^ (stripZeros fuel d).2 : ℚ) = d.1 * 10 ^ d.2 := by
  induction fuel generalizing d with
  | zero => rfl
  | succ fuel ih =>
    obtain ⟨digits, exponent⟩ := d
    rw [stripZeros]
    split
    · next hzero =>
      have hdigits : digits = 10 * (digits / 10) := by omega
      rw [ih, zpow_add₀ (by norm_num), zpow_one]
      conv_rhs => rw [hdigits]
      push_cast
      ring
    · rfl

/-- The shortest decimal of a number is rounded to it. -/
theorem shortest_roundsTo (h : x.sizeWord ≠ 0) (tie : Tie) :
    RoundsTo ((x.shortest tie).1 * 10 ^ (x.shortest tie).2) x.sizeWord := by
  unfold shortest
  rw [stripZeros_eq, ← holds_interval_iff h]
  exact holds_search_interval h tie

end DocQuery.Double
