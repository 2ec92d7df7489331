import DocQuery.Calendar.Instant
import DocQuery.Proofs.Number.Texts
import Mathlib.Algebra.Order.Group.Nat
import Mathlib.Algebra.Order.Group.Unbundled.Int
import Mathlib.Data.Nat.Init

/-!
# Instants and their texts

Each day has a date of its own (`Calendar.dateOf_injective`): the year of an era that a day belongs to
grows with the day, so it is enough to look at the first days of the years.  The text of an instant is
made of its date and its time of day, which can be cut apart again; so no two instants have one text
(`Instant.display_injective`).
-/

namespace DocQuery

/-! ### Cutting a text -/

theorem cut_unique {α : Type} {c : α} {front other back rest : List α} (hfront : c ∉ front)
    (hother : c ∉ other) (h : front ++ c :: back = other ++ c :: rest) : front = other ∧ back = rest := by
  induction front generalizing other with
  | nil =>
    cases other with
    | nil => exact ⟨rfl, (List.cons.inj h).2⟩
    | cons d other => exact absurd ((List.cons.inj h).1 ▸ List.mem_cons_self) hother
  | cons d front ih =>
    cases other with
    | nil => exact absurd ((List.cons.inj h).1.symm ▸ List.mem_cons_self) hfront
    | cons e other =>
      obtain ⟨rfl, htail⟩ := List.cons.inj h
      obtain ⟨rfl, hback⟩ := ih (fun hc => hfront (List.mem_cons_of_mem d hc))
        (fun hc => hother (List.mem_cons_of_mem d hc)) htail
      exact ⟨rfl, hback⟩

theorem Text.notMem_of_isDigit {c : Char} {cs : List Char} (hcs : ∀ d ∈ cs, d.isDigit = true)
    (hc : c.isDigit = false) : c ∉ cs := fun hmem => by
  rw [hcs c hmem] at hc
  cases hc

theorem Text.toDigits_injective {m n : Nat} (h : Nat.toDigits 10 m = Nat.toDigits 10 n) : m = n := by
  rw [← Nat.ofDigitChars_ten_toDigits (n := m), h, Nat.ofDigitChars_ten_toDigits]

namespace Calendar

/-! ### Years of an era -/

/-- The year of an era that a day of the era belongs to. -/
def yearOf (day : Nat) : Nat := (day - day / 1460 + day / 36524 - day / 146096) / 365

/-- The first day of a year of an era. -/
def firstDay (year : Nat) : Nat := 365 * year + year / 4 - year / 100

theorem yearOf_mono {day other : Nat} (h : day ≤ other) (hother : other ≤ 146096) :
    yearOf day ≤ yearOf other := by
  induction other, h using Nat.le_induction with
  | base => exact le_rfl
  | succ other _ ih =>
    refine (ih (by omega)).trans (Nat.div_le_div_right ?_)
    omega

/-- Each year has its first day, and the day before belongs to the year before. -/
theorem yearOf_firstDay : ∀ year : Fin 400,
    yearOf (firstDay year) = year ∧ yearOf (firstDay (year + 1) - 1) = year := by
  decide +kernel

theorem firstDay_yearOf_le {day : Nat} (h : day ≤ 146096) :
    yearOf day ≤ 399 ∧ firstDay (yearOf day) ≤ day ∧ day ≤ firstDay (yearOf day) + 365 := by
  have hyear : yearOf day ≤ 399 := by
    unfold yearOf
    omega
  refine ⟨hyear, ?_, ?_⟩
  · by_contra hlt
    have hbefore := yearOf_mono (show day ≤ firstDay (yearOf day) - 1 by omega)
      (by unfold firstDay; omega)
    by_cases hzero : yearOf day = 0
    · rw [hzero] at hlt
      exact hlt (Nat.zero_le _)
    · have := (yearOf_firstDay ⟨yearOf day - 1, by omega⟩).2
      rw [show (yearOf day - 1) + 1 = yearOf day by omega] at this
      dsimp only at this
      omega
  · by_contra hlt
    have hnext : firstDay (yearOf day + 1) ≤ firstDay (yearOf day) + 366 := by
      unfold firstDay
      omega
    by_cases hlast : yearOf day = 399
    · rw [hlast] at hlt
      exact absurd h (by unfold firstDay at hlt; omega)
    · have hbehind := yearOf_mono (show firstDay (yearOf day + 1) ≤ day by omega) h
      have := (yearOf_firstDay ⟨yearOf day + 1, by omega⟩).1
      dsimp only at this
      omega

/-! ### Dates -/

theorem month_eq (day : Nat) :
    (if (5 * (day : Int) + 2) / 153 < 10 then (5 * (day : Int) + 2) / 153 + 3
      else (5 * (day : Int) + 2) / 153 - 9).toNat =
      (if (5 * day + 2) / 153 < 10 then (5 * day + 2) / 153 + 3 else (5 * day + 2) / 153 - 9) ∧
    ((day : Int) - (153 * ((5 * (day : Int) + 2) / 153) + 2) / 5 + 1).toNat =
      day - (153 * ((5 * day + 2) / 153) + 2) / 5 + 1 := by
  obtain ⟨shifted, hshifted⟩ : ∃ shifted, shifted = (5 * day + 2) / 153 := ⟨_, rfl⟩
  have hcast : (5 * (day : Int) + 2) / 153 = shifted := by omega
  rw [hcast, ← hshifted]
  constructor
  · split <;> split <;> omega
  · omega

/-- A date from the era, the year of the era, and the day of the year. -/
theorem exists_dateOf (days : Int) : ∃ (era : Int) (year day : Nat), year ≤ 399 ∧ day ≤ 365 ∧
    days + 719468 = era * 146097 + firstDay year + day ∧
    dateOf days =
      (let shifted := (5 * day + 2) / 153
      let month := if shifted < 10 then shifted + 3 else shifted - 9
      (year + era * 400 + (if month ≤ 2 then 1 else 0), month, day - (153 * shifted + 2) / 5 + 1)) := by
  obtain ⟨era, hera⟩ : ∃ era, era = (days + 719468).fdiv 146097 := ⟨_, rfl⟩
  obtain ⟨day, hday⟩ : ∃ day : Nat, (day : Int) = days + 719468 - era * 146097 ∧ day ≤ 146096 := by
    rw [Int.fdiv_eq_ediv_of_nonneg _ (by decide)] at hera
    exact ⟨(days + 719468 - era * 146097).toNat, by omega, by omega⟩
  obtain ⟨hyear, hfirst, hlast⟩ := firstDay_yearOf_le hday.2
  refine ⟨era, yearOf day, day - firstDay (yearOf day), hyear, by omega, by omega, ?_⟩
  have hyearOf : (day - day / 1460 + day / 36524 - day / 146096) / 365 = (yearOf day : Int) := by
    unfold yearOf
    omega
  have hdayOf : (day : Int) - (365 * yearOf day + yearOf day / 4 - yearOf day / 100) =
      (day - firstDay (yearOf day) : Nat) := by
    unfold firstDay at *
    omega
  unfold dateOf
  simp only [← hera, ← hday.1, hyearOf, hdayOf, Prod.mk.injEq]
  obtain ⟨hmonth, hinside⟩ := month_eq (day - firstDay (yearOf day))
  refine ⟨?_, hmonth, hinside⟩
  rw [hmonth]

/-- No two days have the same date. -/
theorem dateOf_injective : Function.Injective dateOf := by
  intro days other h
  obtain ⟨era, year, day, hyear, hday, hdays, hdate⟩ := exists_dateOf days
  obtain ⟨era', year', day', hyear', hday', hdays', hdate'⟩ := exists_dateOf other
  rw [hdate, hdate'] at h
  simp only [Prod.mk.injEq] at h
  obtain ⟨hyears, hmonths, hinside⟩ := h
  have hshifted : (5 * day + 2) / 153 = (5 * day' + 2) / 153 := by
    split at hmonths <;> split at hmonths <;> omega
  rw [hshifted] at hyears hinside
  have hsame : day = day' := by omega
  obtain ⟨rfl, rfl⟩ : era = era' ∧ year = year' := by omega
  omega

end Calendar

namespace Instant

attribute [ext] Parts

variable {t u : Instant}

/-! ### The parts of an instant -/

theorem eq_of_timeOfDay {rest other : Nat} (hhour : rest / 3600000 = other / 3600000)
    (hminute : rest / 60000 % 60 = other / 60000 % 60) (hsecond : rest / 1000 % 60 = other / 1000 % 60)
    (hmillisecond : rest % 1000 = other % 1000) : rest = other := by
  omega

/-- An instant is given by its date and its time of day. -/
theorem eq_of_parts (h : t.parts = u.parts) : t = u := by
  unfold parts at h
  simp only [Parts.mk.injEq] at h
  obtain ⟨hyear, hmonth, hday, hhour, hminute, hsecond, hmillisecond⟩ := h
  have hdays := Calendar.dateOf_injective (Prod.ext hyear (Prod.ext hmonth hday))
  have hrest := eq_of_timeOfDay hhour hminute hsecond hmillisecond
  rw [Int.fdiv_eq_ediv_of_nonneg _ (by decide), Int.fdiv_eq_ediv_of_nonneg _ (by decide)] at hdays hrest
  obtain ⟨first⟩ := t
  obtain ⟨second⟩ := u
  congr 1
  apply Int64.toInt_inj.1
  dsimp only at hdays hrest
  omega

/-! ### Digits of a date -/

theorem ofDigitChars_padded (width n : Nat) : Nat.ofDigitChars 10 (padded width n) 0 = n := by
  rw [padded, Nat.ofDigitChars_append, Nat.ofDigitChars_replicate_zero, Nat.mul_zero,
    Nat.ofDigitChars_ten_toDigits]

theorem padded_injective (width : Nat) : Function.Injective (padded width) := fun m n h => by
  rw [← ofDigitChars_padded width m, h, ofDigitChars_padded]

theorem isDigit_of_mem_padded {width n : Nat} : ∀ c ∈ padded width n, c.isDigit = true := by
  rw [padded, List.forall_mem_append]
  exact ⟨fun c hc => List.eq_of_mem_replicate hc ▸ by decide, Text.isDigit_of_mem_toDigits⟩

theorem exists_digit_cons_padded (width n : Nat) :
    ∃ c rest, padded width n = c :: rest ∧ c.isDigit = true := by
  have hne : padded width n ≠ [] := by simp [padded, Nat.toDigits_ne_nil]
  obtain ⟨c, rest, hcons⟩ := List.exists_cons_of_ne_nil hne
  exact ⟨c, rest, hcons, isDigit_of_mem_padded c (hcons ▸ List.mem_cons_self)⟩

/-- Milliseconds as digits, at least one of them. -/
def fractionText (milliseconds : Nat) : List Char :=
  if (fractionDigits milliseconds).isEmpty then ['0'] else fractionDigits milliseconds

/-- The zeros that are left out stand behind the digits. -/
theorem padded_eq_fractionDigits (m : Nat) :
    ∃ k, padded 3 m = fractionDigits m ++ List.replicate k '0' := by
  refine ⟨((padded 3 m).reverse.takeWhile (· == '0')).length, ?_⟩
  have hzeros : (padded 3 m).reverse.takeWhile (· == '0') =
      List.replicate ((padded 3 m).reverse.takeWhile (· == '0')).length '0' :=
    List.eq_replicate_of_mem fun c hc => by simpa using List.mem_takeWhile_imp hc
  rw [fractionDigits, ← List.reverse_inj, List.reverse_append, List.reverse_reverse,
    List.reverse_replicate, ← hzeros, List.takeWhile_append_dropWhile]

theorem millisecond_lt (t : Instant) : t.parts.millisecond < 1000 := Nat.mod_lt _ (by decide)

theorem fractionText_injective {m n : Nat} (hm : m < 1000) (hn : n < 1000)
    (h : fractionText m = fractionText n) : m = n := by
  have hvalue : ∀ {m : Nat}, m < 1000 →
      m = Nat.ofDigitChars 10 (fractionText m) 0 * 10 ^ (3 - (fractionText m).length) := by
    intro m hm
    obtain ⟨k, hk⟩ := padded_eq_fractionDigits m
    have hlength : (fractionDigits m).length + k = 3 := by
      have hpadded := congrArg List.length hk
      have hdigits := (Nat.length_toDigits_le_iff (b := 10) (k := 3) (by decide) (by decide)).2 hm
      simp only [padded, List.length_append, List.length_replicate] at hpadded
      omega
    have hpaddedValue := congrArg (Nat.ofDigitChars 10 · 0) hk
    simp only [ofDigitChars_padded, Nat.ofDigitChars_append,
      Nat.ofDigitChars_replicate_zero] at hpaddedValue
    unfold fractionText
    split
    · next hempty =>
      rw [List.isEmpty_iff.1 hempty, Nat.ofDigitChars_nil, Nat.mul_zero] at hpaddedValue
      exact hpaddedValue
    · rw [show 3 - (fractionDigits m).length = k by omega, Nat.mul_comm]
      exact hpaddedValue
  rw [hvalue hm, h, ← hvalue hn]

/-- The year of a message: with a sign outside of the years of four digits. -/
def yearText (year : Int) : List Char :=
  if year < 0 then '-' :: padded 4 year.natAbs
  else if 9999 < year then '+' :: padded 4 year.natAbs
  else padded 4 year.natAbs

theorem yearText_cut {year other : Int} {back rest : List Char}
    (h : yearText year ++ '-' :: back = yearText other ++ '-' :: rest) : year = other ∧ back = rest := by
  have hfirst : ∀ (year : Int) (cs : List Char), ∃ c, (yearText year ++ cs).head? = some c ∧
      (c = '-' ↔ year < 0) ∧ (c = '+' ↔ 9999 < year) := by
    intro year cs
    obtain ⟨c, rest, hcons, hc⟩ := exists_digit_cons_padded 4 year.natAbs
    unfold yearText
    split
    · exact ⟨'-', rfl, by simpa, by simp; omega⟩
    · split
      · exact ⟨'+', rfl, by simp; omega, by simpa⟩
      · refine ⟨c, by rw [hcons]; rfl, ?_, ?_⟩ <;>
        · refine iff_of_false ?_ (by assumption)
          rintro rfl
          exact absurd hc (by decide)
  obtain ⟨c, hc, hnegative, hgreat⟩ := hfirst year ('-' :: back)
  obtain ⟨d, hd, hnegative', hgreat'⟩ := hfirst other ('-' :: rest)
  rw [h, hd] at hc
  obtain rfl : d = c := Option.some.inj hc
  rw [hnegative] at hnegative'
  rw [hgreat] at hgreat'
  have hplain : ∀ n, '-' ∉ padded 4 n :=
    fun n => Text.notMem_of_isDigit isDigit_of_mem_padded (by decide)
  have hcut : padded 4 year.natAbs ++ '-' :: back = padded 4 other.natAbs ++ '-' :: rest := by
    unfold yearText at h
    by_cases hyear : year < 0
    · rw [if_pos hyear, if_pos (hnegative'.1 hyear)] at h
      exact (List.cons.inj h).2
    · by_cases hmany : 9999 < year
      · rw [if_neg hyear, if_neg (hnegative'.not.1 hyear), if_pos hmany, if_pos (hgreat'.1 hmany)] at h
        exact (List.cons.inj h).2
      · rwa [if_neg hyear, if_neg (hnegative'.not.1 hyear), if_neg hmany,
          if_neg (hgreat'.not.1 hmany)] at h
  obtain ⟨hpadded, hback⟩ := cut_unique (hplain _) (hplain _) hcut
  have habs := padded_injective 4 hpadded
  exact ⟨by omega, hback⟩

/-- An instant that has a date. -/
def HasDate (t : Instant) : Prop := ¬(greatestYear < t.parts.year ∨ t.parts.year < -greatestYear)

theorem display_of_not_hasDate (h : ¬t.HasDate) : t.display = toString t.milliseconds.toInt := by
  unfold display
  exact if_pos (by simpa using not_not.1 h)

theorem toList_display (h : t.HasDate) : t.display.toList =
    yearText t.parts.year ++ '-' :: (padded 2 t.parts.month ++ '-' :: (padded 2 t.parts.day ++
      ' ' :: (Nat.toDigits 10 t.parts.hour ++ ':' :: (padded 2 t.parts.minute ++
        ':' :: (padded 2 t.parts.second ++
          '.' :: (fractionText t.parts.millisecond ++ " +00:00:00".toList)))))) := by
  unfold display
  dsimp only
  rw [if_neg (by simpa [HasDate] using h), String.toList_ofList]
  simp only [List.append_assoc, List.cons_append]
  rfl

/-- A date shows by the blank behind it. -/
theorem mem_display_iff : ' ' ∈ t.display.toList ↔ t.HasDate := by
  constructor
  · intro hmem
    by_contra hdate
    rw [display_of_not_hasDate hdate, Double.toList_toString_int, List.mem_append] at hmem
    rcases hmem with hmem | hmem
    · split at hmem
      · exact absurd (List.mem_singleton.1 hmem) (by decide)
      · cases hmem
    · exact Text.notMem_of_isDigit Text.isDigit_of_mem_toDigits (by decide) hmem
  · intro hdate
    rw [toList_display hdate]
    simp

/-- No two instants have one text. -/
theorem display_injective (h : t.display = u.display) : t = u := by
  by_cases hdate : t.HasDate
  · have hother : u.HasDate := mem_display_iff.1 (h ▸ mem_display_iff.2 hdate)
    have hlist := congrArg String.toList h
    rw [toList_display hdate, toList_display hother] at hlist
    have hpadded : ∀ {c : Char} {width n : Nat}, c.isDigit = false → c ∉ padded width n := fun hc =>
      Text.notMem_of_isDigit isDigit_of_mem_padded hc
    have hdigits : ∀ {n : Nat}, ':' ∉ Nat.toDigits 10 n := fun {n} =>
      Text.notMem_of_isDigit Text.isDigit_of_mem_toDigits (by decide)
    obtain ⟨hyear, hlist⟩ := yearText_cut hlist
    obtain ⟨hmonth, hlist⟩ := cut_unique (hpadded (by decide)) (hpadded (by decide)) hlist
    obtain ⟨hday, hlist⟩ := cut_unique (hpadded (by decide)) (hpadded (by decide)) hlist
    obtain ⟨hhour, hlist⟩ := cut_unique hdigits hdigits hlist
    obtain ⟨hminute, hlist⟩ := cut_unique (hpadded (by decide)) (hpadded (by decide)) hlist
    obtain ⟨hsecond, hlist⟩ := cut_unique (hpadded (by decide)) (hpadded (by decide)) hlist
    have hmillisecond := fractionText_injective (millisecond_lt t) (millisecond_lt u)
      (List.append_cancel_right hlist)
    exact eq_of_parts (Parts.ext hyear (padded_injective 2 hmonth) (padded_injective 2 hday)
      (Text.toDigits_injective hhour) (padded_injective 2 hminute) (padded_injective 2 hsecond)
      hmillisecond)
  · have hother : ¬u.HasDate := fun hother => hdate (mem_display_iff.1 (h ▸ mem_display_iff.2 hother))
    rw [display_of_not_hasDate hdate, display_of_not_hasDate hother] at h
    obtain ⟨first⟩ := t
    obtain ⟨second⟩ := u
    exact congrArg mk (Int64.toInt_inj.1 (Value.toString_int_injective h))

/-- There are no quotes in the text of an instant. -/
theorem quote_notMem_display (t : Instant) : '"' ∉ t.display.toList := by
  have hpadded : ∀ {width n : Nat}, '"' ∉ padded width n :=
    Text.notMem_of_isDigit isDigit_of_mem_padded (by decide)
  have hdigits : ∀ {n : Nat}, '"' ∉ Nat.toDigits 10 n :=
    Text.notMem_of_isDigit Text.isDigit_of_mem_toDigits (by decide)
  by_cases hdate : t.HasDate
  · have hyear : '"' ∉ yearText t.parts.year := by
      unfold yearText
      split
      · simpa using hpadded
      · split
        · simpa using hpadded
        · exact hpadded
    have hfraction : '"' ∉ fractionText t.parts.millisecond := by
      obtain ⟨k, hk⟩ := padded_eq_fractionDigits t.parts.millisecond
      unfold fractionText
      split
      · decide
      · exact fun hmem => hpadded (hk ▸ List.mem_append_left _ hmem)
    rw [toList_display hdate]
    simp [hyear, hpadded, hdigits, hfraction]
  · rw [display_of_not_hasDate hdate, Double.toList_toString_int, List.mem_append, not_or]
    refine ⟨?_, hdigits⟩
    split <;> decide

end Instant

end DocQuery
