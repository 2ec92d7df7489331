import DocQuery.Number.Double
import Mathlib.Data.Nat.Log

/-!
# Whole numbers in the binary format

Rounding whole numbers to the binary format keeps their order (`Double.rank_ofInt_le`): it may make
two numbers equal, but never turns them round.  The size word of a natural number is that of its
power of two and, behind it, the number of steps above that power, rounded (`Double.wholeSize`); both
parts grow with the number.
-/

namespace DocQuery.Double

/-! ### Rounding a quotient -/

theorem roundQuotient_mono {num other : Nat} (h : num ≤ other) (den : Nat) :
    roundQuotient num den ≤ roundQuotient other den := by
  have hquot : num / den ≤ other / den := Nat.div_le_div_right h
  have hnum := Nat.div_add_mod num den
  have hother := Nat.div_add_mod other den
  unfold roundQuotient
  dsimp only
  rcases hquot.eq_or_lt with heq | hlt
  · -- in the same step of the format only the remainders count
    have hrem : num % den ≤ other % den := by
      rw [heq] at hnum
      omega
    rw [heq]
    simp only [Bool.or_eq_true, decide_eq_true_eq, Bool.and_eq_true, beq_iff_eq]
    split <;> split <;> omega
  · split <;> split <;> omega

/-- A quotient without a remainder is not rounded. -/
theorem roundQuotient_mul_self (q : Nat) {den : Nat} (hden : 0 < den) :
    roundQuotient (q * den) den = q := by
  unfold roundQuotient
  simp only [Nat.mul_div_cancel q hden, Nat.mul_mod_left, Nat.mul_zero, Nat.not_lt_zero,
    decide_false, Bool.false_or, Bool.and_eq_true, beq_iff_eq]
  rw [if_neg (by omega)]

theorem roundQuotient_mul_right (num den : Nat) {k : Nat} (hk : 0 < k) :
    roundQuotient (num * k) (den * k) = roundQuotient num den := by
  unfold roundQuotient
  have hless : den * k < 2 * (num % den * k) ↔ den < 2 * (num % den) := by
    rw [← Nat.mul_assoc, Nat.mul_lt_mul_right hk]
  have hhalf : 2 * (num % den * k) = den * k ↔ 2 * (num % den) = den := by
    rw [← Nat.mul_assoc, Nat.mul_left_inj hk.ne']
  simp only [Nat.mul_div_mul_right _ _ hk, Nat.mul_mod_mul_right, Bool.or_eq_true,
    decide_eq_true_eq, Bool.and_eq_true, beq_iff_eq, hless, hhalf]

/-! ### The size word of a natural number -/

/-- The bits for the size of a natural number that is not zero. -/
def wholeSize (n : Nat) : Nat :=
  (n.log2 + 1022) * twoTo 52 + roundQuotient (n * twoTo 52) (twoTo n.log2)

theorem twoTo_pos (n : Nat) : 0 < twoTo n := Nat.two_pow_pos n

theorem twoTo_add (m n : Nat) : twoTo (m + n) = twoTo m * twoTo n := Nat.pow_add 2 m n

/-- The integer part in units of the last binary digit has 53 digits at once. -/
theorem unitExponent_whole {n : Nat} (hn : n ≠ 0) : unitExponent n 1 = (n.log2 : Int) - 52 := by
  have hone : Nat.log2 1 = 0 := by decide
  have hlow : twoTo n.log2 ≤ n := Nat.log2_self_le hn
  have hquot : ¬ (inUnits n 1 ((n.log2 : Int) - 52)).1 / (inUnits n 1 ((n.log2 : Int) - 52)).2 <
      twoTo 52 := by
    rw [Nat.not_lt]
    unfold inUnits
    split
    · next h =>
      rw [Nat.one_mul, Nat.le_div_iff_mul_le (twoTo_pos _), ← twoTo_add,
        show 52 + ((n.log2 : Int) - 52).toNat = n.log2 by omega]
      exact hlow
    · next h =>
      rw [Nat.div_one]
      calc twoTo 52 = twoTo n.log2 * twoTo (-((n.log2 : Int) - 52)).toNat := by
            rw [← twoTo_add, show n.log2 + (-((n.log2 : Int) - 52)).toNat = 52 by omega]
        _ ≤ n * twoTo (-((n.log2 : Int) - 52)).toNat := Nat.mul_le_mul_right _ hlow
  unfold unitExponent
  simp only [hone, Int.ofNat_zero, Int.sub_zero, hquot, if_false]
  omega

theorem ofRatio_whole (negative : Bool) {n : Nat} (hn : n ≠ 0) :
    ofRatio negative n 1 = ofSize negative (min infiniteWord (wholeSize n)) := by
  have hunits : roundQuotient (inUnits n 1 ((n.log2 : Int) - 52)).1
      (inUnits n 1 ((n.log2 : Int) - 52)).2 = roundQuotient (n * twoTo 52) (twoTo n.log2) := by
    unfold inUnits
    split
    · next h =>
      rw [Nat.one_mul, ← roundQuotient_mul_right n _ (twoTo_pos 52), ← twoTo_add,
        show ((n.log2 : Int) - 52).toNat + 52 = n.log2 by omega]
    · next h =>
      rw [← roundQuotient_mul_right _ 1 (twoTo_pos n.log2), Nat.mul_assoc, ← twoTo_add,
        Nat.one_mul, show (-((n.log2 : Int) - 52)).toNat + n.log2 = 52 by omega]
  unfold ofRatio
  rw [if_neg hn, unitExponent_whole hn]
  simp only [hunits, show ((n.log2 : Int) - 52 + 1074).toNat = n.log2 + 1022 by omega]
  rfl

theorem le_wholeSize {n : Nat} (hn : n ≠ 0) : (n.log2 + 1023) * twoTo 52 ≤ wholeSize n := by
  have hlow : twoTo 52 * twoTo n.log2 ≤ n * twoTo 52 := by
    rw [Nat.mul_comm]
    exact Nat.mul_le_mul_right _ (Nat.log2_self_le hn)
  have hround := roundQuotient_mono hlow (twoTo n.log2)
  rw [roundQuotient_mul_self _ (twoTo_pos _)] at hround
  calc (n.log2 + 1023) * twoTo 52 = (n.log2 + 1022) * twoTo 52 + twoTo 52 := Nat.succ_mul _ _
    _ ≤ wholeSize n := Nat.add_le_add_left hround _

theorem wholeSize_le (n : Nat) : wholeSize n ≤ (n.log2 + 1024) * twoTo 52 := by
  have hhigh : n * twoTo 52 ≤ twoTo 53 * twoTo n.log2 := by
    calc n * twoTo 52 ≤ twoTo (n.log2 + 1) * twoTo 52 :=
          Nat.mul_le_mul_right _ (Nat.lt_log2_self (n := n)).le
      _ = twoTo 53 * twoTo n.log2 := by rw [← twoTo_add, ← twoTo_add]; congr 1; omega
  have hround := roundQuotient_mono hhigh (twoTo n.log2)
  rw [roundQuotient_mul_self _ (twoTo_pos _)] at hround
  calc wholeSize n ≤ (n.log2 + 1022) * twoTo 52 + twoTo 53 := Nat.add_le_add_left hround _
    _ = (n.log2 + 1022) * twoTo 52 + 2 * twoTo 52 := rfl
    _ = (n.log2 + 1024) * twoTo 52 := (Nat.add_mul _ 2 _).symm

theorem wholeSize_mono {n m : Nat} (hn : n ≠ 0) (h : n ≤ m) : wholeSize n ≤ wholeSize m := by
  have hm : m ≠ 0 := by omega
  have hlog : n.log2 ≤ m.log2 := by
    rw [Nat.le_log2 hm]
    exact (Nat.log2_self_le hn).trans h
  rcases hlog.eq_or_lt with heq | hlt
  · unfold wholeSize
    rw [heq]
    exact Nat.add_le_add_left (roundQuotient_mono (Nat.mul_le_mul_right _ h) _) _
  · calc wholeSize n ≤ (n.log2 + 1024) * twoTo 52 := wholeSize_le n
      _ ≤ (m.log2 + 1023) * twoTo 52 := Nat.mul_le_mul_right _ (by omega)
      _ ≤ wholeSize m := le_wholeSize hm

/-! ### Whole numbers on the line of integers -/

/-- The place of a natural number on the line of integers. -/
def wholeRank (n : Nat) : Nat := if n = 0 then 0 else min infiniteWord (wholeSize n)

theorem wholeRank_mono {n m : Nat} (h : n ≤ m) : wholeRank n ≤ wholeRank m := by
  unfold wholeRank
  split
  · exact Nat.zero_le _
  · next hn =>
    rw [if_neg (by omega : ¬ m = 0)]
    exact Nat.le_min.2 ⟨Nat.min_le_left _ _, (Nat.min_le_right _ _).trans (wholeSize_mono hn h)⟩

theorem wholeRank_le (n : Nat) : wholeRank n ≤ infiniteWord := by
  unfold wholeRank
  split
  · exact Nat.zero_le _
  · exact Nat.min_le_left _ _

theorem ofInt_eq (n : Int) : ofInt n = ofSize (n < 0) (wholeRank n.natAbs) := by
  unfold ofInt wholeRank
  split
  · next h => rw [h]; rfl
  · next h => exact ofRatio_whole _ h

section Size

variable {size : Nat} (negative : Bool) (h : size ≤ infiniteWord)

include h

theorem bits_ofSize : (ofSize negative size).bits.toNat =
    size + if negative then twoTo 63 else 0 := by
  have hinfinite : infiniteWord + twoTo 63 < 2 ^ 64 := by decide
  rw [ofSize, UInt64.toNat_ofNat_of_lt']
  split
  · exact lt_of_le_of_lt (Nat.add_le_add_right h _) hinfinite
  · exact lt_of_le_of_lt h (by decide)

theorem sizeWord_ofSize : (ofSize negative size).sizeWord = size := by
  have hsize : size < twoTo 63 := lt_of_le_of_lt h (by decide)
  rw [sizeWord, bits_ofSize negative h]
  split
  · rw [Nat.add_mod_right, Nat.mod_eq_of_lt hsize]
  · exact Nat.mod_eq_of_lt hsize

theorem isNegative_ofSize : (ofSize negative size).isNegative = negative := by
  have hsize : size < twoTo 63 := lt_of_le_of_lt h (by decide)
  rw [isNegative, bits_ofSize negative h]
  cases negative <;> simp [hsize]

theorem isNaN_ofSize : (ofSize negative size).isNaN = false := by
  rw [isNaN, sizeWord_ofSize negative h]
  simpa using h

theorem rank_ofSize : (ofSize negative size).rank = if negative then -(size : Int) else size := by
  rw [rank, isNegative_ofSize negative h, sizeWord_ofSize negative h]

end Size

theorem isNaN_ofInt (n : Int) : (ofInt n).isNaN = false := by
  rw [ofInt_eq]
  exact isNaN_ofSize _ (wholeRank_le _)

theorem rank_ofInt (n : Int) :
    (ofInt n).rank = if n < 0 then -(wholeRank n.natAbs : Int) else wholeRank n.natAbs := by
  rw [ofInt_eq, rank_ofSize _ (wholeRank_le _)]
  simp only [decide_eq_true_eq]

/-- Rounding keeps the order of whole numbers. -/
theorem rank_ofInt_le {n m : Int} (h : n ≤ m) : (ofInt n).rank ≤ (ofInt m).rank := by
  rw [rank_ofInt, rank_ofInt]
  split
  · split
    · have hsizes := wholeRank_mono (by omega : m.natAbs ≤ n.natAbs)
      omega
    · omega
  · have hsizes := wholeRank_mono (by omega : n.natAbs ≤ m.natAbs)
    rw [if_neg (by omega)]
    exact_mod_cast hsizes

theorem compare?_ofInt (d : Double) {n : Int} (hd : d.isNaN = false) :
    d.compare? (ofInt n) = some (compare d.rank (ofInt n).rank) := by
  simp [compare?, hd, isNaN_ofInt]

end DocQuery.Double
