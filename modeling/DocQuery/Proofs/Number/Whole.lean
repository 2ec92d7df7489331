import DocQuery.Proofs.Number.Texts

/-!
# Whole numbers in the binary format

Below `2 ^ 53` whole numbers are not rounded, and the binary format writes them as they are
(`Double.display_ofInt`).
-/

namespace DocQuery.Double

/-! ### Conversion without rounding -/

variable {m k : Nat}

theorem log2_lt (hm : m ≠ 0) (h : m < twoTo 53) : m.log2 < 53 := (Nat.log2_lt hm).2 h

/-- The 53 digits of a whole number that has no more of them. -/
theorem wholeSize_eq (hm : m ≠ 0) (h : m < twoTo 53) :
    wholeSize m = (m.log2 + 1022) * twoTo 52 + m * twoTo (52 - m.log2) := by
  have hlog := log2_lt hm h
  rw [wholeSize, show m * twoTo 52 = m * twoTo (52 - m.log2) * twoTo m.log2 by
    rw [Nat.mul_assoc, ← twoTo_add, Nat.sub_add_cancel (by omega)],
    roundQuotient_mul_self _ (twoTo_pos _)]

theorem wholeSize_ne_zero (hm : m ≠ 0) : wholeSize m ≠ 0 := by
  have hlow := le_wholeSize hm
  have hpos := Nat.mul_pos (show 0 < m.log2 + 1023 by omega) (twoTo_pos 52)
  omega

theorem wholeSize_lt (hm : m ≠ 0) (h : m < twoTo 53) : wholeSize m < 1076 * twoTo 52 := by
  have hlog := log2_lt hm h
  calc wholeSize m < (m.log2 + 1022) * twoTo 52 + twoTo 53 := by
        rw [wholeSize_eq hm h, show twoTo 53 = twoTo (m.log2 + 1) * twoTo (52 - m.log2) by
          rw [← twoTo_add]; congr 1; omega]
        exact Nat.add_lt_add_left (Nat.mul_lt_mul_of_pos_right Nat.lt_log2_self (twoTo_pos _)) _
    _ = (m.log2 + 1024) * twoTo 52 := (Nat.add_mul _ 2 _).symm
    _ ≤ 1076 * twoTo 52 := Nat.mul_le_mul_right _ (by omega)

theorem sizeValue_wholeSize (hm : m ≠ 0) (h : m < twoTo 53) : sizeValue (wholeSize m) = m := by
  have hlog := log2_lt hm h
  have hsplit : twoTo 52 = twoTo m.log2 * twoTo (52 - m.log2) := by rw [← twoTo_add]; congr 1; omega
  have hnext : twoTo 53 = twoTo (m.log2 + 1) * twoTo (52 - m.log2) := by rw [← twoTo_add]; congr 1; omega
  rw [wholeSize_eq hm h, sizeValue_eq (.inr ?_) ?_]
  · push_cast
    rw [cast_twoTo, mul_assoc, ← zpow_natCast, ← zpow_add₀ two_ne_zero,
      show ((52 - m.log2 : Nat) : Int) + ((m.log2 + 1022 : Int) - 1074) = 0 by omega, zpow_zero, mul_one]
  · rw [hsplit]
    exact Nat.mul_le_mul_right _ (Nat.log2_self_le hm)
  · rw [hnext]
    exact Nat.mul_le_mul_right _ Nat.lt_log2_self.le

/-- Nothing else that is whole is rounded to such a number. -/
theorem eq_of_wholeSize_eq (hk : k ≠ 0) (hm : m ≠ 0) (h : m < twoTo 53)
    (heq : wholeSize k = wholeSize m) : k = m := by
  have hsmall : k < twoTo 53 := by
    by_contra hlarge
    have hlog : 53 ≤ k.log2 := (Nat.le_log2 hk).2 (not_lt.1 hlarge)
    have hlow : 1076 * twoTo 52 ≤ wholeSize k :=
      (Nat.mul_le_mul_right _ (by omega)).trans (le_wholeSize hk)
    have hhigh := wholeSize_lt hm h
    omega
  have hvalue := congrArg sizeValue heq
  rw [sizeValue_wholeSize hk hsmall, sizeValue_wholeSize hm h] at hvalue
  exact_mod_cast hvalue

/-! ### The shortest decimal of a whole number -/

namespace Interval

variable {i : Interval} {tie : Tie} {exponent : Int}

theorem exponent_of_onGrid {found : Nat × Int} (h : i.onGrid tie exponent = some found) :
    found.2 = exponent := by
  unfold onGrid at h
  dsimp only at h
  split at h
  · cases h
  · cases h; rfl
  · cases h; rfl
  · split at h <;> cases h <;> rfl

/-- The search goes no further than to a grid with a neighbour inside. -/
theorem le_search {grids steps : Nat} (hsteps : steps < grids)
    (h : (i.onGrid tie (exponent - steps)).isSome = true) :
    exponent - steps ≤ (i.search tie grids exponent).2 := by
  induction grids generalizing exponent steps with
  | zero => omega
  | succ grids ih =>
    rw [search]
    cases hfound : i.onGrid tie exponent with
    | some found =>
      show exponent - steps ≤ found.2
      rw [exponent_of_onGrid hfound]
      omega
    | none =>
      cases steps with
      | zero => simp [hfound] at h
      | succ steps =>
        have hstep : exponent - 1 - steps = exponent - (steps + 1 : Nat) := by omega
        rw [← hstep] at h ⊢
        exact ih (by omega) h

end Interval

theorem le_stripZeros (fuel : Nat) (d : Nat × Int) : d.2 ≤ (stripZeros fuel d).2 := by
  induction fuel generalizing d with
  | zero => exact le_rfl
  | succ fuel ih =>
    obtain ⟨digits, exponent⟩ := d
    rw [stripZeros]
    split
    · exact (Int.le_add_one le_rfl).trans (ih _)
    · exact le_rfl

variable {x : Double}

theorem interval_whole (hm : m ≠ 0) (h : m < twoTo 53) (hx : x.sizeWord = wholeSize m) :
    x.interval.middle = m * x.interval.den := by
  have hsize := wholeSize_ne_zero hm
  obtain ⟨before, hbefore⟩ : ∃ before, before + 1 = x.sizeWord := ⟨x.sizeWord - 1, by omega⟩
  obtain ⟨hmiddle, -, -⟩ := interval_eq hbefore
  have hden : (x.interval.den : ℚ) ≠ 0 := by exact_mod_cast (den_interval_pos x).ne'
  rw [hx, sizeValue_wholeSize hm h, div_eq_iff hden] at hmiddle
  exact_mod_cast hmiddle

/-- A whole number below `2 ^ 53` needs no digits behind a point. -/
theorem exponent_shortest (hm : m ≠ 0) (h : m < twoTo 53) (hx : x.sizeWord = wholeSize m) (tie : Tie) :
    0 ≤ (x.shortest tie).2 := by
  have hden := den_interval_pos x
  have hmiddle := interval_whole hm h hx
  -- the grid of the whole numbers has the number itself
  have hunits : (x.interval.onGrid tie 0).isSome = true := by
    have hfloor : (x.interval.floor 0).1 = m := by
      simp [Interval.floor, hmiddle, tenTo, Nat.mul_div_cancel _ hden]
    refine Interval.onGrid_isSome_of_holds (.inl ?_)
    rw [hfloor, holds_interval_iff (hx ▸ wholeSize_ne_zero hm), hx, zpow_zero, mul_one]
    exact wholeSize_roundsTo hm
  have hleading : leadingExponent x.interval.middle x.interval.den = (digitCount m : Int) - 1 := by
    rw [leadingExponent, if_pos, hmiddle, Nat.mul_div_cancel _ hden]
    rw [hmiddle]
    exact Nat.le_mul_of_pos_left _ (Nat.pos_of_ne_zero hm)
  have hcount : 1 ≤ digitCount m ∧ digitCount m ≤ 16 := by
    refine ⟨Nat.length_toDigits_pos, (Nat.length_toDigits_le_iff (by decide) (by decide)).2 (h.trans ?_)⟩
    decide
  have hstart : (digitCount m : Int) - 1 - (digitCount m - 1 : Nat) = 0 := by omega
  rw [← hstart] at hunits
  have hsearch := Interval.le_search (show digitCount m - 1 < 17 by omega) hunits
  unfold shortest
  dsimp only
  rw [hleading]
  exact (by omega : (0 : Int) ≤ _).trans (le_stripZeros _ _)

theorem toDigits_mul_pow (hm : m ≠ 0) (e : Nat) :
    Nat.toDigits 10 (m * 10 ^ e) = Nat.toDigits 10 m ++ List.replicate e '0' := by
  induction e with
  | zero => simp
  | succ e ih =>
    have hpos : 0 < m * 10 ^ e := Nat.mul_pos (Nat.pos_of_ne_zero hm) (by positivity)
    rw [pow_succ, ← Nat.mul_assoc, Nat.toDigits_eq_if (by decide), if_neg (by omega),
      Nat.mul_div_cancel _ (by decide), Nat.mul_mod_left, ih, List.replicate_succ', List.append_assoc]
    rfl

theorem text_whole (hm : m ≠ 0) (h : m < twoTo 53) (hx : x.sizeWord = wholeSize m) :
    x.text plainLayout = (if x.isNegative then ['-'] else []) ++ Nat.toDigits 10 m := by
  have hsize : x.sizeWord ≠ 0 := hx ▸ wholeSize_ne_zero hm
  obtain ⟨digits, hdigits⟩ : ∃ digits, (x.shortest plainLayout.tie).1 = digits := ⟨_, rfl⟩
  obtain ⟨exponent, hexponent⟩ := Int.eq_ofNat_of_zero_le (exponent_shortest hm h hx plainLayout.tie)
  have hrounds := shortest_roundsTo hsize plainLayout.tie
  rw [hdigits, hexponent, hx, zpow_natCast] at hrounds
  have hnat : ((digits * 10 ^ exponent : Nat) : ℚ) = digits * 10 ^ exponent := by push_cast; rfl
  rw [← hnat] at hrounds
  have hne : digits * 10 ^ exponent ≠ 0 := by
    intro hzero
    rw [hzero] at hrounds
    exact wholeSize_ne_zero hm (hrounds.unique (by exact_mod_cast roundsTo_zero))
  have heq : digits * 10 ^ exponent = m :=
    eq_of_wholeSize_eq hne hm h ((wholeSize_roundsTo hne).unique hrounds)
  have hdigitsNe : digits ≠ 0 := fun hzero => hne (by rw [hzero, Nat.zero_mul])
  rw [text, if_neg hsize, ← heq, toDigits_mul_pow hdigitsNe]
  show _ ++ positionalText false (Nat.toDigits 10 (x.shortest plainLayout.tie).1)
    (x.shortest plainLayout.tie).2 = _
  rw [hdigits, hexponent]
  simp [positionalText]

/-- Below `2 ^ 53` the binary format writes whole numbers as they are. -/
theorem display_ofInt {n : Int} (h : n.natAbs < twoTo 53) : (ofInt n).display = toString n := by
  by_cases hn : n.natAbs = 0
  · obtain rfl := Int.natAbs_eq_zero.1 hn
    decide
  have hfinite : wholeSize n.natAbs < infiniteWord := (wholeSize_lt hn h).trans (by decide)
  have hsize : (ofInt n).sizeWord = wholeSize n.natAbs := by
    rw [ofInt_eq, sizeWord_ofSize _ (wholeRank_le _), wholeRank, if_neg hn, Nat.min_eq_right hfinite.le]
  have hsign : (ofInt n).isNegative = decide (n < 0) := by
    rw [ofInt_eq, isNegative_ofSize _ (wholeRank_le _)]
  rw [display, if_neg (by simp [isNaN_ofInt]), if_neg (by simp [isInfinite, hsize, hfinite.ne]),
    text_whole hn h hsize, hsign, ← toList_toString_int, String.ofList_toList]

end DocQuery.Double
