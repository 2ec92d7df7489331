import DocQuery.Proofs.Number.Shortest
import DocQuery.Proofs.Value.Ids
import Mathlib.Data.List.TakeWhile

/-!
# The texts of numbers

A message writes a number as a sign and digits that are rounded to it (`Double.exists_display`), so no
two numbers have one text (`Double.display_eq_display_iff`), and a number has the text of a whole number
only if it is what that number is converted to (`Double.eq_ofInt_of_display`).
-/

namespace DocQuery

/-! ### Reading digits -/

namespace Text

/-- What digits with at most one point between them mean. -/
def decimal (cs : List Char) : ℚ :=
  Nat.ofDigitChars 10 (cs.filter Char.isDigit) 0 / 10 ^ ((cs.dropWhile (· ≠ '.')).drop 1).length

variable {whole fraction : List Char}

theorem isDigit_of_mem_toDigits {n : Nat} : ∀ c ∈ Nat.toDigits 10 n, c.isDigit = true := fun _ =>
  Nat.isDigit_of_mem_toDigits (by decide) (by decide)

theorem ne_point_of_isDigit {c : Char} (h : c.isDigit = true) : c ≠ '.' := by
  rintro rfl
  exact absurd h (by decide)

theorem decimal_of_whole (hwhole : ∀ c ∈ whole, c.isDigit = true) :
    decimal whole = Nat.ofDigitChars 10 whole 0 := by
  have hdrop : whole.dropWhile (· ≠ '.') = [] := by
    rw [List.dropWhile_eq_nil_iff]
    exact fun c hc => decide_eq_true (ne_point_of_isDigit (hwhole c hc))
  rw [decimal, List.filter_eq_self.2 hwhole, hdrop]
  simp

theorem decimal_of_point (hwhole : ∀ c ∈ whole, c.isDigit = true)
    (hfraction : ∀ c ∈ fraction, c.isDigit = true) : decimal (whole ++ '.' :: fraction) =
      Nat.ofDigitChars 10 (whole ++ fraction) 0 / 10 ^ fraction.length := by
  have hpoints : ∀ c ∈ whole, decide (c ≠ '.') = true := fun c hc =>
    decide_eq_true (ne_point_of_isDigit (hwhole c hc))
  rw [decimal, List.filter_append, List.filter_eq_self.2 hwhole,
    List.filter_cons_of_neg (by decide), List.filter_eq_self.2 hfraction,
    List.dropWhile_append_of_pos hpoints]
  rfl

end Text

namespace Double

open Text

/-- Digits without an exponent mean what they are written for. -/
theorem decimal_positionalText (n : Nat) (exponent : Int) :
    decimal (positionalText false (Nat.toDigits 10 n) exponent) = n * 10 ^ exponent := by
  have hdigits := isDigit_of_mem_toDigits (n := n)
  have hzeros : ∀ k, ∀ c ∈ List.replicate k '0', c.isDigit = true := fun k c hc =>
    List.eq_of_mem_replicate hc ▸ by decide
  unfold positionalText
  split
  · next h =>
    rw [if_neg (by decide), List.append_nil, decimal_of_whole, Nat.ofDigitChars_append,
      Nat.ofDigitChars_ten_toDigits, Nat.ofDigitChars_replicate_zero]
    · push_cast
      rw [mul_comm, ← zpow_natCast, Int.toNat_of_nonneg h]
    · exact List.forall_mem_append.2 ⟨hdigits, hzeros _⟩
  · next h =>
    have hpower : (10 : ℚ) ^ exponent = 1 / 10 ^ (-exponent).toNat := by
      rw [← zpow_natCast, Int.toNat_of_nonneg (by omega), zpow_neg, one_div, inv_inv]
    rw [hpower, mul_one_div]
    dsimp only
    split
    · next hless =>
      rw [decimal_of_point (fun c hc => hdigits c (List.mem_of_mem_take hc))
        (fun c hc => hdigits c (List.mem_of_mem_drop hc)), List.take_append_drop,
        Nat.ofDigitChars_ten_toDigits,
        List.length_drop]
      congr 2
      omega
    · next hless =>
      have hlist : '0' :: '.' :: List.replicate ((-exponent).toNat - (Nat.toDigits 10 n).length) '0' ++
          Nat.toDigits 10 n = ['0'] ++ '.' :: (List.replicate ((-exponent).toNat -
            (Nat.toDigits 10 n).length) '0' ++ Nat.toDigits 10 n) := rfl
      rw [hlist, decimal_of_point (List.forall_mem_singleton.2 rfl)
          (List.forall_mem_append.2 ⟨hzeros _, hdigits⟩),
        Nat.ofDigitChars_append, Nat.ofDigitChars_append, show Nat.ofDigitChars 10 ['0'] 0 = 0 from rfl,
        Nat.ofDigitChars_replicate_zero, Nat.mul_zero, Nat.ofDigitChars_ten_toDigits,
        List.length_append, List.length_replicate]
      congr 2
      omega

theorem mem_positionalText {digits : List Char} (hdigits : ∀ c ∈ digits, c.isDigit = true)
    {exponent : Int} :
    ∀ c ∈ positionalText false digits exponent, c.isDigit = true ∨ c = '.' := by
  have hzeros : ∀ k, ∀ c ∈ List.replicate k '0', c.isDigit = true := fun k c hc =>
    List.eq_of_mem_replicate hc ▸ by decide
  intro c hc
  unfold positionalText at hc
  dsimp only at hc
  split at hc
  · rw [if_neg (by decide), List.append_nil, List.mem_append] at hc
    exact .inl (hc.elim (hdigits c) (hzeros _ c))
  · split at hc
    · rw [List.mem_append, List.mem_cons] at hc
      rcases hc with hc | hc | hc
      · exact .inl (hdigits c (List.mem_of_mem_take hc))
      · exact .inr hc
      · exact .inl (hdigits c (List.mem_of_mem_drop hc))
    · rw [List.cons_append, List.cons_append, List.mem_cons, List.mem_cons, List.mem_append] at hc
      rcases hc with rfl | hc | hc
      · exact .inl (by decide)
      · exact .inr hc
      · exact .inl (hc.elim (hzeros _ c) (hdigits c))

theorem exists_digit_cons_positionalText {digits : List Char} (hne : digits ≠ [])
    (hdigits : ∀ c ∈ digits, c.isDigit = true) (exponent : Int) :
    ∃ c rest, positionalText false digits exponent = c :: rest ∧ c.isDigit = true := by
  obtain ⟨c, rest, rfl⟩ := List.exists_cons_of_ne_nil hne
  have hc := hdigits c List.mem_cons_self
  unfold positionalText
  split
  · exact ⟨c, _, rfl, hc⟩
  · dsimp only
    split
    · next hless =>
      obtain ⟨k, hk⟩ : ∃ k, (c :: rest).length - (-exponent).toNat = k + 1 :=
        ⟨(c :: rest).length - (-exponent).toNat - 1, by omega⟩
      rw [hk]
      exact ⟨c, _, rfl, hc⟩
    · exact ⟨'0', _, rfl, by decide⟩

/-! ### The text of a number -/

/-- Digits, among them points, with a digit in front. -/
structure IsNumeral (body : List Char) : Prop where
  first : ∃ c rest, body = c :: rest ∧ c.isDigit = true
  digits : ∀ c ∈ body, c.isDigit = true ∨ c = '.'

variable {x y : Double}

theorem roundsTo_zero : RoundsTo 0 0 where
  lower t ht := by omega
  upper := by
    have hzero : 0 ≤ sizeValue 0 := by unfold sizeValue; positivity
    have hmore : sizeValue 0 < sizeValue 1 := sizeValue_strictMono (by decide)
    linarith
  lower_odd h := by omega
  upper_odd h := by omega

/-- The sign and the digits of a number, which are rounded to it. -/
theorem exists_text (x : Double) : ∃ body,
    x.text plainLayout = (if x.isNegative then ['-'] else []) ++ body ∧
      IsNumeral body ∧ RoundsTo (decimal body) x.sizeWord := by
  by_cases hzero : x.sizeWord = 0
  · refine ⟨['0'], ?_, ⟨⟨'0', [], rfl, rfl⟩, List.forall_mem_singleton.2 (.inl rfl)⟩, ?_⟩
    · rw [text, if_pos hzero]
      rfl
    · rw [hzero, decimal_of_whole (List.forall_mem_singleton.2 rfl)]
      exact_mod_cast roundsTo_zero
  · have hdigits := isDigit_of_mem_toDigits (n := (x.shortest plainLayout.tie).1)
    refine ⟨positionalText false (Nat.toDigits 10 (x.shortest plainLayout.tie).1)
      (x.shortest plainLayout.tie).2, ?_,
      ⟨exists_digit_cons_positionalText Nat.toDigits_ne_nil hdigits _, mem_positionalText hdigits⟩, ?_⟩
    · rw [text, if_neg hzero]
      rfl
    · rw [decimal_positionalText]
      exact shortest_roundsTo hzero _

/-- A number is its sign and its size. -/
theorem eq_of_sizeWord (hsign : x.isNegative = y.isNegative) (hsize : x.sizeWord = y.sizeWord) :
    x = y := by
  obtain ⟨bits⟩ := x
  obtain ⟨others⟩ := y
  have hbits := bits.toNat_lt
  have hothers := others.toNat_lt
  have htwo : twoTo 63 = 9223372036854775808 := by decide
  simp only [isNegative, sizeWord, htwo, decide_eq_decide] at hsign hsize
  congr 1
  apply UInt64.toNat_inj.1
  omega

/-- A minus in front of something that does not begin with one. -/
theorem signed_inj {negative other : Bool} {body rest : List Char} (hbody : body.head? ≠ some '-')
    (hrest : rest.head? ≠ some '-')
    (h : (if negative then ['-'] else []) ++ body = (if other then ['-'] else []) ++ rest) :
    negative = other ∧ body = rest := by
  cases negative <;> cases other
  · exact ⟨rfl, h⟩
  · exact absurd (by rw [show body = '-' :: rest from h]; rfl) hbody
  · exact absurd (by rw [show rest = '-' :: body from h.symm]; rfl) hrest
  · exact ⟨rfl, (List.cons.inj h).2⟩

theorem IsNumeral.head?_ne {body : List Char} (h : IsNumeral body) {c : Char} (hc : c.isDigit = false) :
    body.head? ≠ some c := by
  obtain ⟨first, rest, rfl, hfirst⟩ := h.first
  rintro heq
  obtain rfl : first = c := Option.some.inj heq
  rw [hfirst] at hc
  cases hc

theorem isNumeral_toDigits (n : Nat) : IsNumeral (Nat.toDigits 10 n) := by
  have hdigits := isDigit_of_mem_toDigits (n := n)
  obtain ⟨c, rest, hcons⟩ := List.exists_cons_of_ne_nil (Nat.toDigits_ne_nil (b := 10) (n := n))
  exact ⟨⟨c, rest, hcons, hdigits c (hcons ▸ List.mem_cons_self)⟩, fun c hc => .inl (hdigits c hc)⟩

/-- What a message writes behind the sign of a number: a word, or digits that are rounded to it. -/
def IsBody (x : Double) (body : List Char) : Prop :=
  x.isInfinite = true ∧ body = ['i', 'n', 'f'] ∨
    x.isFinite = true ∧ IsNumeral body ∧ RoundsTo (decimal body) x.sizeWord

theorem IsBody.head?_ne {body : List Char} (h : IsBody x body) {c : Char} (hc : c.isDigit = false)
    (hword : c ≠ 'i') : body.head? ≠ some c := by
  rcases h with ⟨-, rfl⟩ | ⟨-, hnumeral, -⟩
  · exact fun heq => hword (Option.some.inj heq).symm
  · exact hnumeral.head?_ne hc

theorem exists_display (h : x.isNaN = false) : ∃ body,
    x.display.toList = (if x.isNegative then ['-'] else []) ++ body ∧ IsBody x body := by
  unfold display
  rw [if_neg (by simp [h])]
  by_cases hinfinite : x.isInfinite = true
  · rw [if_pos hinfinite]
    refine ⟨_, ?_, .inl ⟨hinfinite, rfl⟩⟩
    cases x.isNegative <;> rfl
  · rw [if_neg hinfinite, String.toList_ofList]
    obtain ⟨body, htext, hnumeral, hrounds⟩ := exists_text x
    refine ⟨body, htext, .inr ⟨?_, hnumeral, hrounds⟩⟩
    simp only [isNaN, isInfinite, isFinite, decide_eq_false_iff_not, beq_iff_eq, decide_eq_true_eq] at *
    omega

theorem IsNumeral.ne_inf {body : List Char} (h : IsNumeral body) : body ≠ ['i', 'n', 'f'] := fun heq =>
  h.head?_ne (c := 'i') (by decide) (by rw [heq]; rfl)

theorem display_of_nan (h : x.isNaN = true) : x.display = "NaN" := if_pos h

theorem isNaN_of_display {negative : Bool} {body : List Char} (hbody : body.head? ≠ some 'N')
    (h : x.display.toList = (if negative then ['-'] else []) ++ body) : x.isNaN = false := by
  by_contra hnan
  rw [display_of_nan (by simpa using hnan)] at h
  cases negative
  · exact hbody (by rw [show body = "NaN".toList from h.symm]; rfl)
  · exact absurd (List.cons.inj h).1 (by decide)

theorem display_injective (hx : x.isNaN = false) (hy : y.isNaN = false) (h : x.display = y.display) :
    x = y := by
  obtain ⟨body, htext, hbody⟩ := exists_display hx
  obtain ⟨other, hother, hotherBody⟩ := exists_display hy
  have hlist := congrArg String.toList h
  rw [htext, hother] at hlist
  obtain ⟨hsign, rfl⟩ := signed_inj (hbody.head?_ne (by decide) (by decide))
    (hotherBody.head?_ne (by decide) (by decide)) hlist
  refine eq_of_sizeWord hsign ?_
  rcases hbody, hotherBody with
    ⟨⟨hinf, rfl⟩ | ⟨-, hnumeral, hrounds⟩, ⟨hinf', hbody⟩ | ⟨-, hnumeral', hrounds'⟩⟩
  · exact (beq_iff_eq.1 hinf).trans (beq_iff_eq.1 hinf').symm
  · exact absurd rfl hnumeral'.ne_inf
  · exact absurd hbody hnumeral.ne_inf
  · exact hrounds.unique hrounds'

/-- A message tells all numbers apart, but not the values that are no numbers. -/
theorem display_eq_display_iff : x.display = y.display ↔ x.isNaN = true ∧ y.isNaN = true ∨ x = y := by
  have hnan : ∀ {z w : Double}, z.isNaN = false → z.display = w.display → w.isNaN = false := by
    intro z w hz h
    obtain ⟨body, htext, hbody⟩ := exists_display hz
    exact isNaN_of_display (hbody.head?_ne (by decide) (by decide)) (h ▸ htext)
  constructor
  · intro h
    cases hx : x.isNaN with
    | false => exact .inr (display_injective hx (hnan hx h) h)
    | true =>
      refine .inl ⟨rfl, ?_⟩
      by_contra hy
      rw [hnan (by simpa using hy) h.symm] at hx
      cases hx
  · rintro (⟨hx, hy⟩ | rfl)
    · rw [display_of_nan hx, display_of_nan hy]
    · rfl

theorem toList_toString_int (n : Int) :
    (toString n).toList = (if decide (n < 0) then ['-'] else []) ++ Nat.toDigits 10 n.natAbs := by
  show n.repr.toList = _
  rw [Int.repr_eq_if]
  by_cases h : n < 0
  · rw [if_neg (by omega), decide_eq_true h, String.toList_append, Nat.toList_repr,
      show (-n).toNat = n.natAbs by omega]
    rfl
  · rw [if_pos (by omega), decide_eq_false h, Nat.toList_repr, show n.toNat = n.natAbs by omega]
    rfl

/-- Only one number is written like a whole number: the one that it is converted to. -/
theorem eq_ofInt_of_display {n : Int} (h : x.display = toString n) : x = ofInt n := by
  have hnumeral := isNumeral_toDigits n.natAbs
  have hlist := congrArg String.toList h
  rw [toList_toString_int] at hlist
  obtain ⟨body, htext, hbody⟩ := exists_display (isNaN_of_display (hnumeral.head?_ne (by decide)) hlist)
  rw [htext] at hlist
  obtain ⟨hsign, rfl⟩ := signed_inj (hbody.head?_ne (by decide) (by decide))
    (hnumeral.head?_ne (by decide)) hlist
  obtain ⟨hfinite, -, hrounds⟩ := hbody.resolve_left fun hinf => hnumeral.ne_inf hinf.2
  rw [decimal_of_whole isDigit_of_mem_toDigits, Nat.ofDigitChars_ten_toDigits] at hrounds
  have hsize : x.sizeWord = wholeRank n.natAbs := by
    unfold wholeRank
    split
    · next hzero =>
      rw [hzero] at hrounds
      exact hrounds.unique (by exact_mod_cast roundsTo_zero)
    · next hne =>
      rw [← hrounds.unique (wholeSize_roundsTo hne)]
      simp only [isFinite, decide_eq_true_eq] at hfinite
      omega
  rw [ofInt_eq]
  refine eq_of_sizeWord ?_ ?_
  · rw [isNegative_ofSize _ (wholeRank_le _), hsign]
  · rw [sizeWord_ofSize _ (wholeRank_le _), hsize]

end Double

end DocQuery
