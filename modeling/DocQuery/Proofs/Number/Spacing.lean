import DocQuery.Number.Shortest
import DocQuery.Proofs.Number.Rounding
import Mathlib.Algebra.Order.Field.Power
import Mathlib.Algebra.Order.Field.Rat
import Mathlib.Tactic.Linarith
import Mathlib.Tactic.LinearCombination
import Mathlib.Tactic.Positivity
import Mathlib.Tactic.Ring

/-!
# What is rounded to a number

The numbers of the binary format in their order are the `sizeValue`s of their size words.  Rounding to
the nearest takes a size to the word `s` if it lies between the middles to the neighbours of `s`, where
the middle itself goes to the even word (`Double.RoundsTo`); there is no other word for it
(`Double.RoundsTo.unique`).  This is how whole numbers are converted (`Double.wholeSize_roundsTo`).
-/

namespace DocQuery

theorem cast_twoTo (n : Nat) : ((twoTo n : Nat) : ℚ) = 2 ^ n := Nat.cast_pow 2 n

theorem cast_tenTo (n : Nat) : ((tenTo n : Nat) : ℚ) = 10 ^ n := Nat.cast_pow 10 n

theorem tenTo_pos (n : Nat) : 0 < tenTo n := Nat.pow_pos (by decide)

namespace Double

/-! ### The numbers in their order -/

/-- The digits of the size word `s`, see `significand`. -/
def digitsOf (s : Nat) : Nat := if s < twoTo 52 then s else twoTo 52 + s % twoTo 52

/-- The exponent of the size word `s`, see `exponent`. -/
def exponentOf (s : Nat) : Int := if s < twoTo 52 then -1074 else (s / twoTo 52 : Nat) - 1075

/-- The number with the size word `s`. -/
def sizeValue (s : Nat) : ℚ := digitsOf s * 2 ^ exponentOf s

/-- A word is the place of the exponent and, behind it, the digits; the last step of one exponent is the
first one of the next. -/
theorem sizeValue_eq {place digits : Nat} (hlow : place = 0 ∨ twoTo 52 ≤ digits)
    (hhigh : digits ≤ twoTo 53) :
    sizeValue (place * twoTo 52 + digits) = digits * 2 ^ ((place : Int) - 1074) := by
  have htwo : twoTo 52 = 4503599627370496 := by decide
  have hnext : twoTo 53 = 9007199254740992 := by decide
  rw [htwo] at hlow
  rw [hnext] at hhigh
  rcases hhigh.eq_or_lt with rfl | hlt
  · have hdigits : digitsOf (place * twoTo 52 + 9007199254740992) = 4503599627370496 := by
      rw [digitsOf, htwo]; split <;> omega
    have hexponent : exponentOf (place * twoTo 52 + 9007199254740992) = (place : Int) - 1074 + 1 := by
      rw [exponentOf, htwo]; split <;> omega
    rw [sizeValue, hdigits, hexponent, zpow_add₀ (by norm_num), zpow_one]
    push_cast
    ring
  · have hdigits : digitsOf (place * twoTo 52 + digits) = digits := by
      rw [digitsOf, htwo]; split <;> omega
    have hexponent : exponentOf (place * twoTo 52 + digits) = (place : Int) - 1074 := by
      rw [exponentOf, htwo]; split <;> omega
    rw [sizeValue, hdigits, hexponent]

theorem exists_place (s : Nat) : ∃ place digits, s = place * twoTo 52 + digits ∧
    (place = 0 ∨ twoTo 52 ≤ digits) ∧ digits < twoTo 53 ∧
    digitsOf s = digits ∧ exponentOf s = (place : Int) - 1074 := by
  have htwo : twoTo 52 = 4503599627370496 := by decide
  have hnext : twoTo 53 = 9007199254740992 := by decide
  refine ⟨s / twoTo 52 - 1, s - (s / twoTo 52 - 1) * twoTo 52, ?_⟩
  simp only [digitsOf, exponentOf, htwo, hnext]
  split <;> omega

theorem sizeValue_succ (s : Nat) : sizeValue (s + 1) = sizeValue s + 2 ^ exponentOf s := by
  obtain ⟨place, digits, rfl, hlow, hhigh, -, hexponent⟩ := exists_place s
  rw [hexponent, Nat.add_assoc, sizeValue_eq (by omega) (by omega), sizeValue_eq hlow hhigh.le]
  push_cast
  ring

theorem sizeValue_strictMono : StrictMono sizeValue := strictMono_nat_of_lt_succ fun s => by
  rw [sizeValue_succ]
  exact lt_add_of_pos_right _ (by positivity)

/-! ### What is rounded to a number -/

/-- A size is rounded to the number with the size word `s`: it lies between the middles to the two
neighbours, and is in the middle itself only if the word is even. -/
structure RoundsTo (v : ℚ) (s : Nat) : Prop where
  lower : ∀ t, t + 1 = s → sizeValue t + sizeValue s ≤ 2 * v
  upper : 2 * v ≤ sizeValue s + sizeValue (s + 1)
  lower_odd : s % 2 = 1 → ∀ t, t + 1 = s → sizeValue t + sizeValue s < 2 * v
  upper_odd : s % 2 = 1 → 2 * v < sizeValue s + sizeValue (s + 1)

variable {v : ℚ} {s t : Nat}

theorem RoundsTo.le (hs : RoundsTo v s) (ht : RoundsTo v t) : t ≤ s := by
  by_contra hlt
  obtain ⟨u, rfl⟩ : ∃ u, t = u + 1 := ⟨t - 1, by omega⟩
  have hsu : sizeValue s ≤ sizeValue u := sizeValue_strictMono.monotone (by omega)
  have hsucc : sizeValue (s + 1) ≤ sizeValue (u + 1) := sizeValue_strictMono.monotone (by omega)
  have hupper := hs.upper
  have hlower := ht.lower u rfl
  obtain rfl : s = u := sizeValue_strictMono.injective (by linarith)
  rcases Nat.mod_two_eq_zero_or_one s with heven | hodd
  · have := ht.lower_odd (by omega) s rfl
    linarith
  · have := hs.upper_odd hodd
    linarith

/-- Nothing is rounded to two numbers. -/
theorem RoundsTo.unique (hs : RoundsTo v s) (ht : RoundsTo v t) : s = t :=
  le_antisymm (ht.le hs) (hs.le ht)

/-! ### Rounding whole numbers -/

theorem roundQuotient_spec (num : Nat) {den : Nat} (hden : 0 < den) :
    2 * roundQuotient num den * den ≤ 2 * num + den ∧ 2 * num ≤ 2 * roundQuotient num den * den + den ∧
      (roundQuotient num den % 2 = 1 →
        2 * roundQuotient num den * den < 2 * num + den ∧
        2 * num < 2 * roundQuotient num den * den + den) := by
  have hnum := Nat.div_add_mod num den
  have hrem := Nat.mod_lt num hden
  rw [Nat.mul_comm] at hnum
  have hup : 2 * (num / den + 1) * den = 2 * (num / den * den) + 2 * den := by ring
  have hdown : 2 * (num / den) * den = 2 * (num / den * den) := by ring
  unfold roundQuotient
  simp only [Bool.or_eq_true, decide_eq_true_eq, Bool.and_eq_true, beq_iff_eq]
  split
  · rw [hup]; omega
  · rw [hdown]; omega

/-- A size of one exponent, with the number of last binary digits that is nearest to it. -/
theorem roundsTo_of_nearest {place digits : Nat} {unit : ℚ} (hunit : unit = 2 ^ ((place : Int) - 1074))
    (hlow : twoTo 52 ≤ digits) (hhigh : digits ≤ twoTo 53)
    (hfirst : twoTo 52 * unit ≤ v) (hlast : v < twoTo 53 * unit)
    (hlower : 2 * digits * unit ≤ 2 * v + unit) (hupper : 2 * v ≤ 2 * digits * unit + unit)
    (hodd : digits % 2 = 1 → 2 * digits * unit < 2 * v + unit ∧ 2 * v < 2 * digits * unit + unit) :
    RoundsTo v (place * twoTo 52 + digits) := by
  have hpos : 0 < unit := hunit ▸ by positivity
  have hvalue : ∀ other, twoTo 52 ≤ other → other ≤ twoTo 53 →
      sizeValue (place * twoTo 52 + other) = other * unit := fun other hother hbound => by
    rw [sizeValue_eq (.inr hother) hbound, hunit]
  have hself := hvalue digits hlow hhigh
  have hparity : (place * twoTo 52 + digits) % 2 = digits % 2 := by
    rw [Nat.add_mod, Nat.mul_mod, show twoTo 52 % 2 = 0 by decide, Nat.mul_zero, Nat.zero_mod,
      Nat.zero_add, Nat.mod_mod]
  have hbefore : ∀ t, t + 1 = place * twoTo 52 + digits →
      sizeValue t + digits * unit < 2 * v ∨ sizeValue t = digits * unit - unit := by
    intro t ht
    rcases hlow.eq_or_lt with heq | hlt
    · have hless : sizeValue t < sizeValue (place * twoTo 52 + digits) := sizeValue_strictMono (by omega)
      rw [hself, ← heq] at hless
      rw [← heq]
      exact .inl (by linarith)
    · obtain rfl : t = place * twoTo 52 + (digits - 1) := by omega
      rw [hvalue _ (by omega) (by omega), Nat.cast_sub (by omega)]
      exact .inr (by push_cast; ring)
  have hbehind : 2 * v < digits * unit + sizeValue (place * twoTo 52 + digits + 1) ∨
      sizeValue (place * twoTo 52 + digits + 1) = digits * unit + unit := by
    rcases hhigh.eq_or_lt with heq | hlt
    · have hmore : sizeValue (place * twoTo 52 + digits) < sizeValue (place * twoTo 52 + digits + 1) :=
        sizeValue_strictMono (Nat.lt_succ_self _)
      rw [hself, heq] at hmore
      rw [heq]
      exact .inl (by linarith)
    · rw [Nat.add_assoc, hvalue _ (by omega) (by omega)]
      exact .inr (by push_cast; ring)
  refine ⟨fun t ht => ?_, ?_, fun hs t ht => ?_, fun hs => ?_⟩ <;> rw [hself]
  · rcases hbefore t ht with h | h <;> linarith
  · rcases hbehind with h | h <;> linarith
  · have hstrict := (hodd (hparity ▸ hs)).1
    rcases hbefore t ht with h | h <;> linarith
  · have hstrict := (hodd (hparity ▸ hs)).2
    rcases hbehind with h | h <;> linarith

/-- A whole number is rounded to the number that it is converted to. -/
theorem wholeSize_roundsTo {n : Nat} (hn : n ≠ 0) : RoundsTo n (wholeSize n) := by
  obtain ⟨q, hq⟩ : ∃ q, roundQuotient (n * twoTo 52) (twoTo n.log2) = q := ⟨_, rfl⟩
  have hsize : wholeSize n = (n.log2 + 1022) * twoTo 52 + q := by rw [wholeSize, hq]
  have hlow : twoTo 52 ≤ q := by
    have := le_wholeSize hn
    rw [hsize] at this
    linarith
  have hhigh : q ≤ twoTo 53 := by
    have hdouble : twoTo 53 = 2 * twoTo 52 := by decide
    have := wholeSize_le n
    rw [hsize] at this
    linarith
  -- everything in units of the last binary digit
  obtain ⟨unit, hunit⟩ : ∃ unit : ℚ, unit = 2 ^ (((n.log2 + 1022 : Nat) : Int) - 1074) := ⟨_, rfl⟩
  have hpower : ∀ k, ((twoTo (n.log2 + k) : Nat) : ℚ) = twoTo (52 + k) * unit := by
    intro k
    rw [hunit, cast_twoTo, cast_twoTo, ← zpow_natCast (2 : ℚ) (n.log2 + k),
      ← zpow_natCast (2 : ℚ) (52 + k),
      ← zpow_add₀ two_ne_zero, show ((52 + k : Nat) : Int) + (((n.log2 + 1022 : Nat) : Int) - 1074) =
        ((n.log2 + k : Nat) : Int) by omega]
  have hpos : (0 : ℚ) < twoTo 52 := by exact_mod_cast twoTo_pos 52
  have hden : ((twoTo n.log2 : Nat) : ℚ) = twoTo 52 * unit := hpower 0
  obtain ⟨hlower, hupper, hodd⟩ := roundQuotient_spec (n * twoTo 52) (twoTo_pos n.log2)
  rw [hq] at hlower hupper hodd
  rw [hsize]
  refine roundsTo_of_nearest hunit hlow hhigh ?_ ?_ ?_ ?_ fun hq => ⟨?_, ?_⟩
  · rw [← hden]
    exact_mod_cast Nat.log2_self_le hn
  · rw [← hpower 1]
    exact_mod_cast Nat.lt_log2_self
  · have hcast : (2 * q * twoTo n.log2 : ℚ) ≤ 2 * (n * twoTo 52) + twoTo n.log2 := by
      exact_mod_cast hlower
    rw [hden] at hcast
    exact le_of_mul_le_mul_left (by linarith) hpos
  · have hcast : (2 * (n * twoTo 52) : ℚ) ≤ 2 * q * twoTo n.log2 + twoTo n.log2 := by
      exact_mod_cast hupper
    rw [hden] at hcast
    exact le_of_mul_le_mul_left (by linarith) hpos
  · have hcast : (2 * q * twoTo n.log2 : ℚ) < 2 * (n * twoTo 52) + twoTo n.log2 := by
      exact_mod_cast (hodd hq).1
    rw [hden] at hcast
    exact lt_of_mul_lt_mul_left (by linarith) hpos.le
  · have hcast : (2 * (n * twoTo 52) : ℚ) < 2 * q * twoTo n.log2 + twoTo n.log2 := by
      exact_mod_cast (hodd hq).2
    rw [hden] at hcast
    exact lt_of_mul_lt_mul_left (by linarith) hpos.le

end Double

end DocQuery
