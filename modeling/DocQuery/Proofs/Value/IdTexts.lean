import DocQuery.Proofs.Number.Whole
import DocQuery.Proofs.Value.Sameness

/-!
# Where the texts of ids mislead

The documents of a join are fetched by the values of their ids, and told apart by the texts of these
values.  `Value.mistaken_or_missed_iff` says where the two part: which different ids are taken for one,
since they read the same (`Value.Mistaken`), and which equal ids are not recognised, since they do not
(`Value.Missed`).  None of them is among the values that usually name documents, see
`Value.equals_iff_display_eq`.
-/

namespace DocQuery

/-! ### The negative zero -/

namespace Double

variable {x y : Double}

/-- The zero with a minus in front. -/
def IsNegativeZero (x : Double) : Prop := x.isNegative = true ∧ x.sizeWord = 0

theorem IsNegativeZero.isNaN (h : x.IsNegativeZero) : x.isNaN = false := by
  rw [Double.isNaN, h.2]
  decide

theorem IsNegativeZero.rank (h : x.IsNegativeZero) : x.rank = 0 := by simp [Double.rank, h.2]

/-- In one place there is only one number, unless it is the place of the two zeros. -/
theorem eq_or_negativeZero (h : x.rank = y.rank) :
    x = y ∨ x.IsNegativeZero ∧ y.rank = 0 ∨ y.IsNegativeZero ∧ x.rank = 0 := by
  rcases rank_eq_rank_iff.1 h with heq | ⟨hx, hy⟩
  · exact .inl heq
  · have hrank : ∀ {z : Double}, z.sizeWord = 0 → z.rank = 0 := fun hz => by simp [rank, hz]
    cases hsign : x.isNegative with
    | true => exact .inr (.inl ⟨⟨hsign, hx⟩, hrank hy⟩)
    | false =>
      cases hsign' : y.isNegative with
      | true => exact .inr (.inr ⟨⟨hsign', hy⟩, hrank hx⟩)
      | false => exact .inl (eq_of_sizeWord (hsign.trans hsign'.symm) (hx.trans hy.symm))

/-- No whole number is converted to it. -/
theorem not_negativeZero_ofInt (n : Int) : ¬(ofInt n).IsNegativeZero := by
  rintro ⟨hsign, hsize⟩
  rw [ofInt_eq] at hsign hsize
  rw [isNegative_ofSize _ (wholeRank_le _), decide_eq_true_eq] at hsign
  rw [sizeWord_ofSize _ (wholeRank_le _), wholeRank, if_neg (by omega)] at hsize
  have hwhole := wholeSize_ne_zero (show n.natAbs ≠ 0 by omega)
  have hinfinite : 0 < infiniteWord := by decide
  omega

end Double

namespace Value

variable {a b : Value}

/-! ### Equality of ids -/

/-- Numbers that are compared by what they mean; decimals are not. -/
def IsCounted (a : Value) : Prop := a.asDouble?.isSome = true

theorem equals_of_counted (ha : a.IsCounted) (hb : b.IsCounted) :
    a.equals b = true ↔ a.compare b = .eq := by
  obtain ⟨x, hx⟩ := Option.isSome_iff_exists.1 ha
  obtain ⟨y, hy⟩ := Option.isSome_iff_exists.1 hb
  simp [equals, hx, hy]

theorem equals_of_not_counted (h : ¬(a.IsCounted ∧ b.IsCounted)) : a.equals b = a.same b := by
  unfold equals
  split
  · next x y hx hy => exact absurd ⟨Option.isSome_of_eq_some hx, Option.isSome_of_eq_some hy⟩ h
  · rfl

theorem equals_symm_of_counted (ha : a.IsCounted) (hb : b.IsCounted) (h : a.equals b = true) :
    b.equals a = true := by
  rw [equals_of_counted ha hb] at h
  rw [equals_of_counted hb ha, compare_swap, h]
  rfl

theorem equals_symm (ha : a.WellKeyed) (hb : b.WellKeyed) (h : a.equals b = true) :
    b.equals a = true := by
  by_cases hcounted : a.IsCounted ∧ b.IsCounted
  · exact equals_symm_of_counted hcounted.1 hcounted.2 h
  · rw [equals_of_not_counted hcounted] at h
    rw [equals_of_not_counted fun h => hcounted h.symm]
    exact same_symm ha hb h

theorem equals_comm (ha : a.WellKeyed) (hb : b.WellKeyed) : a.equals b = b.equals a := by
  rw [Bool.eq_iff_iff]
  exact ⟨equals_symm ha hb, equals_symm hb ha⟩

theorem not_counted_of_not_scalar (h : ¬a.IsScalar) : ¬a.IsCounted := by
  intro hcounted
  cases a <;> first | exact h trivial | cases hcounted

/-- Arrays and documents are equal if they are the same. -/
theorem equals_of_not_scalar (h : ¬a.IsScalar) : a.equals b = a.same b :=
  equals_of_not_counted fun hcounted => not_counted_of_not_scalar h hcounted.1

/-! ### Numbers as ids -/

theorem IsCounted.cases (h : a.IsCounted) : (∃ n, a.whole? = some n) ∨ ∃ x, a = .double x := by
  cases a
  case int32 n => exact .inl ⟨_, rfl⟩
  case int64 n => exact .inl ⟨_, rfl⟩
  case double x => exact .inr ⟨_, rfl⟩
  all_goals cases h

theorem IsCounted.bracket_eq (h : a.IsCounted) : a.bracket = 2 := by
  cases a <;> first | rfl | cases h

theorem eq_decimal_of_not_counted (h : a.bracket = 2) (hcounted : ¬a.IsCounted) :
    ∃ d, a = .decimal d := by
  cases a <;> first | exact absurd rfl hcounted | exact ⟨_, rfl⟩ | cases h

theorem counted_of_whole {n : Int} (h : a.whole? = some n) : a.IsCounted := by
  cases a <;> first | exact rfl | cases h

theorem counted_of_place? {i : Int} (h : a.place? = some i) : a.IsCounted := by
  rw [place?, Option.bind_eq_some_iff] at h
  obtain ⟨x, hx, -⟩ := h
  exact Option.isSome_of_eq_some hx

theorem place?_double {x : Double} (h : x.isNaN = false) : (double x).place? = some x.rank := by
  simp [place?, asDouble?, h]

theorem place?_nan {x : Double} (h : x.isNaN = true) : (double x).place? = none := by
  simp [place?, asDouble?, h]

theorem display_of_whole {n : Int} (h : a.whole? = some n) : a.display = toString n := by
  cases a <;> cases h <;> rfl

/-- Next to a number of the binary format, numbers are equal if they are not in different places. -/
theorem equals_double_iff {x : Double} (hb : b.IsCounted) : (double x).equals b = true ↔
    ∀ i j, (double x).place? = some i → b.place? = some j → i = j := by
  rw [equals_of_counted (by exact rfl) hb, compare_numbers rfl hb.bracket_eq,
    compareNumbers_of_place (.inl rfl)]
  cases (double x).place? <;> cases b.place? <;> simp

theorem equals_rounded {n : Int} (h : a.whole? = some n) : (double (.ofInt n)).equals a = true := by
  rw [equals_double_iff (counted_of_whole h), place?_of_whole h, place?_double (Double.isNaN_ofInt n)]
  exact fun i j hi hj => Option.some.inj (hi.symm.trans hj)

/-- Numbers that read the same are equal. -/
theorem equals_of_display (ha : a.IsCounted) (hb : b.IsCounted) (h : a.display = b.display) :
    a.equals b = true := by
  have hdouble : ∀ {n : Int} {x : Double} {c : Value}, c.whole? = some n →
      (double x).display = c.display → (double x).equals c = true := by
    intro n x c hn htext
    rw [display_of_whole hn, display] at htext
    obtain rfl := Double.eq_ofInt_of_display htext
    exact equals_rounded hn
  rcases ha.cases with ⟨m, hm⟩ | ⟨x, rfl⟩ <;> rcases hb.cases with ⟨n, hn⟩ | ⟨y, rfl⟩
  · rw [display_of_whole hm, display_of_whole hn] at h
    rw [equals_of_counted ha hb, compare_numbers (bracket_of_whole hm) (bracket_of_whole hn),
      compareNumbers_of_whole hm hn, toString_int_injective h, Std.compare_self]
  · exact equals_symm_of_counted hb ha (hdouble hm h.symm)
  · exact hdouble hn h
  · rw [display, display, Double.display_eq_display_iff] at h
    rcases h with ⟨hx, hy⟩ | rfl
    · simp [equals_double_iff hb, place?_nan hx]
    · exact (equals_of_counted ha hb).2 (compare_self _)

/-! ### Different ids that read the same -/

/-- Two different ids that read the same: the first one, and what makes the second one read like it. -/
inductive Mistaken : Value → Value → Prop
  /-- a decimal with the text of another number -/
  | decimal {d : Decimal128} {b : Value} (hb : b.bracket = 2) (hne : b ≠ .decimal d)
    (h : d.text = b.display) : Mistaken (.decimal d) b
  /-- code that is the text of another value or has another scope, or a regular expression with its slash
  in another place -/
  | misread {a b : Value} (h : Misread a b) : Mistaken a b
  /-- arrays or documents that are built alike, with parts in one place that clash -/
  | inside {a b : Value} (ha : ¬a.IsScalar) (hb : ¬b.IsScalar) (halike : Alike a b)
    (hclash : Somewhere Clash a b) : Mistaken a b
  /-- different arrays or documents with one text, which is cut into their parts in two ways -/
  | crossing {a b : Value} (h : Crossing a b) (hne : a.same b = false) : Mistaken a b

theorem Misread.not_counted (h : Misread a b) : ¬a.IsCounted := by
  cases h <;> exact Bool.false_ne_true

theorem Mistaken.different (ha : a.WellKeyed) (hb : b.WellKeyed) (h : Mistaken a b) :
    a.display = b.display ∧ a.equals b = false := by
  cases h with
  | @decimal d _ hnumber hne h =>
    have hrigid : (Value.decimal d).IsRigid := trivial
    have hcounted : ¬(Value.decimal d).IsCounted := Bool.false_ne_true
    rw [equals_of_not_counted fun h => hcounted h.1]
    exact ⟨h, hrigid.not_same_iff.2 hne.symm⟩
  | misread h =>
    rw [equals_of_not_counted fun hcounted => h.not_counted hcounted.1]
    exact ⟨h.display_eq, h.not_same⟩
  | inside hna hnb halike hclash =>
    rw [equals_of_not_scalar hna, Bool.eq_false_iff, ne_eq, halike.same_iff ha hb]
    exact ⟨halike.display_eq, not_not_intro hclash⟩
  | crossing h hne =>
    rw [equals_of_not_scalar fun hscalar => h.parts (.text (.inl hscalar) h.text)]
    exact ⟨h.text, hne⟩

/-- Of two different numbers that read the same, one is a decimal. -/
theorem mistaken_numbers (ha : a.bracket = 2) (hb : b.bracket = 2) (h : a.display = b.display)
    (hcounted : ¬(a.IsCounted ∧ b.IsCounted)) (hne : a.same b = false) : Mistaken a b ∨ Mistaken b a := by
  by_cases hcounted' : a.IsCounted
  · obtain ⟨d, rfl⟩ := eq_decimal_of_not_counted hb fun h => hcounted ⟨hcounted', h⟩
    refine .inr (.decimal ha ?_ h.symm)
    rintro rfl
    exact Bool.false_ne_true hcounted'
  · obtain ⟨d, rfl⟩ := eq_decimal_of_not_counted ha hcounted'
    have hrigid : (Value.decimal d).IsRigid := trivial
    exact .inl (.decimal hb (hrigid.not_same_iff.1 hne).symm h)

theorem mistaken_of_different (ha : a.WellKeyed) (hb : b.WellKeyed) (h : a.display = b.display)
    (hequals : a.equals b = false) : Mistaken a b ∨ Mistaken b a := by
  have hcounted : ¬(a.IsCounted ∧ b.IsCounted) := fun hcounted => by
    rw [equals_of_display hcounted.1 hcounted.2 h] at hequals
    cases hequals
  rw [equals_of_not_counted hcounted] at hequals
  by_cases hscalar : a.IsScalar ∨ b.IsScalar
  · rcases clash_of_display ha hb hscalar h hequals with ⟨hna, hnb, -⟩ | hmisread | hmisread
    · exact mistaken_numbers hna hnb h hcounted hequals
    · exact .inl (.misread hmisread)
    · exact .inr (.misread hmisread)
  · obtain ⟨hscalar, hscalar'⟩ := not_or.1 hscalar
    by_cases halike : Alike a b
    · refine .inl (.inside hscalar hscalar' halike ?_)
      by_contra hclash
      rw [(halike.same_iff ha hb).2 hclash] at hequals
      cases hequals
    · exact .inl (.crossing (crossing_of_display h halike) hequals)

/-! ### Equal ids that read in different ways -/

/-- Two equal ids that do not read the same: the first one, and what makes the second one equal to it. -/
inductive Missed : Value → Value → Prop
  /-- no number at all, which counts as equal to all numbers -/
  | nan {x : Double} {b : Value} {i : Int} (hx : x.isNaN = true) (hb : b.place? = some i) :
    Missed (.double x) b
  /-- the negative zero, and another zero -/
  | zero {x : Double} {b : Value} (hx : x.IsNegativeZero) (hb : b.place? = some 0)
    (hne : b ≠ .double x) : Missed (.double x) b
  /-- a number of the binary format, and a large whole number that is rounded to it -/
  | rounded {a : Value} {n : Int} (ha : a.whole? = some n) (hlarge : twoTo 53 ≤ n.natAbs)
    (h : (Double.ofInt n).display ≠ toString n) : Missed (.double (.ofInt n)) a
  /-- arrays or documents with parts that are written in different ways, unless the text is the same by the
  way it is cut -/
  | inside {a b : Value} (ha : ¬a.IsScalar) (hb : ¬b.IsScalar) (h : a.same b = true)
    (hvariant : Somewhere Variant a b) (hcrossing : ¬Crossing a b) : Missed a b

theorem eq_of_double_display {x : Double} {i : Int} (hb : b.place? = some i)
    (h : (double x).display = b.display) : b = .double x ∧ x.isNaN = false ∨ ∃ n, x = .ofInt n := by
  rcases (counted_of_place? hb).cases with ⟨n, hn⟩ | ⟨y, rfl⟩
  · rw [display_of_whole hn] at h
    exact .inr ⟨n, Double.eq_ofInt_of_display h⟩
  · cases hy : y.isNaN with
    | true => simp [place?_nan hy] at hb
    | false =>
      rw [display, display, Double.display_eq_display_iff, hy] at h
      rcases h with ⟨-, hnan⟩ | rfl
      · cases hnan
      · exact .inl ⟨rfl, hy⟩

theorem Missed.equal (hb : b.WellKeyed) (h : Missed a b) :
    a.equals b = true ∧ a.display ≠ b.display := by
  cases h with
  | @nan x _ i hx hplace =>
    rw [equals_double_iff (counted_of_place? hplace), place?_nan hx]
    refine ⟨by simp, fun htext => ?_⟩
    rcases eq_of_double_display hplace htext with ⟨-, hnan⟩ | ⟨n, rfl⟩
    · rw [hnan] at hx
      cases hx
    · rw [Double.isNaN_ofInt] at hx
      cases hx
  | @zero x _ hx hplace hne =>
    rw [equals_double_iff (counted_of_place? hplace), hplace, place?_double hx.isNaN, hx.rank]
    refine ⟨fun i j hi hj => Option.some.inj (hi.symm.trans hj), fun htext => ?_⟩
    rcases eq_of_double_display hplace htext with ⟨heq, -⟩ | ⟨n, rfl⟩
    · exact hne heq
    · exact Double.not_negativeZero_ofInt n hx
  | @rounded _ n hwhole hlarge h =>
    rw [display, display_of_whole hwhole]
    exact ⟨equals_rounded hwhole, h⟩
  | inside hna hnb h hvariant hcrossing =>
    rw [equals_of_not_scalar hna, ne_eq, display_iff_of_same hb h]
    exact ⟨h, not_or.2 ⟨not_not_intro hvariant, hcrossing⟩⟩

theorem missed_whole {x : Double} {n : Int} (hn : b.whole? = some n) (h : (double x).equals b = true)
    (hdisplay : (double x).display ≠ b.display) : Missed (.double x) b := by
  have hplace := place?_of_whole hn
  cases hx : x.isNaN with
  | true => exact .nan hx hplace
  | false =>
    rw [equals_double_iff (counted_of_whole hn), place?_double hx] at h
    rcases Double.eq_or_negativeZero (h _ _ rfl hplace) with rfl | ⟨hzero, hrank⟩ | ⟨hzero, -⟩
    · rw [display, display_of_whole hn] at hdisplay
      exact .rounded hn (not_lt.1 fun hsmall => hdisplay (Double.display_ofInt hsmall)) hdisplay
    · rw [hrank] at hplace
      exact .zero hzero hplace (by rintro rfl; cases hn)
    · exact absurd hzero (Double.not_negativeZero_ofInt n)

theorem missed_doubles {x y : Double} (h : (double x).equals (.double y) = true)
    (hdisplay : (double x).display ≠ (double y).display) :
    Missed (.double x) (.double y) ∨ Missed (.double y) (.double x) := by
  have hne : x ≠ y := by
    rintro rfl
    exact hdisplay rfl
  cases hx : x.isNaN <;> cases hy : y.isNaN
  · have hplace := place?_double hx
    have hplace' := place?_double hy
    rw [equals_double_iff (by exact rfl)] at h
    rcases Double.eq_or_negativeZero (h _ _ hplace hplace') with heq | ⟨hzero, hrank⟩ | ⟨hzero, hrank⟩
    · exact absurd heq hne
    · exact .inl (.zero hzero (hrank ▸ hplace') (by simpa using hne.symm))
    · exact .inr (.zero hzero (hrank ▸ hplace) (by simpa using hne))
  · exact .inr (.nan hy (place?_double hx))
  · exact .inl (.nan hx (place?_double hy))
  · rw [display, display, Double.display_of_nan hx, Double.display_of_nan hy] at hdisplay
    exact absurd rfl hdisplay

theorem missed_of_counted (ha : a.IsCounted) (hb : b.IsCounted) (h : a.equals b = true)
    (hdisplay : a.display ≠ b.display) : Missed a b ∨ Missed b a := by
  rcases ha.cases with ⟨m, hm⟩ | ⟨x, rfl⟩ <;> rcases hb.cases with ⟨n, hn⟩ | ⟨y, rfl⟩
  · rw [equals_of_counted ha hb, compare_numbers (bracket_of_whole hm) (bracket_of_whole hn),
      compareNumbers_of_whole hm hn, Std.compare_eq_iff_eq] at h
    rw [display_of_whole hm, display_of_whole hn, h] at hdisplay
    exact absurd rfl hdisplay
  · exact .inr (missed_whole hm (equals_symm_of_counted ha hb h) hdisplay.symm)
  · exact .inl (missed_whole hn h hdisplay)
  · exact missed_doubles h hdisplay

theorem missed_of_equal (hb : b.WellKeyed) (h : a.equals b = true) (hdisplay : a.display ≠ b.display) :
    Missed a b ∨ Missed b a := by
  by_cases hcounted : a.IsCounted ∧ b.IsCounted
  · exact missed_of_counted hcounted.1 hcounted.2 h hdisplay
  · rw [equals_of_not_counted hcounted] at h
    by_cases hscalar : a.IsScalar
    · -- scalars that are the same are written in different ways only if they are the two zeros
      rw [ne_eq, display_iff_of_same_scalar hscalar h, not_not] at hdisplay
      cases hdisplay with
      | keys hkeys => exact absurd hscalar id
      | zeros hx hy hne => exact absurd ⟨rfl, rfl⟩ hcounted
    · have hscalar' := (isScalar_iff_of_same h).not.1 hscalar
      rw [ne_eq, display_iff_of_same hb h, not_or, not_not] at hdisplay
      exact .inl (.inside hscalar hscalar' h hdisplay.1 hdisplay.2)

/-! ### Texts against equality -/

/-- **Texts of ids against their equality.**  Two ids read the same although they are different, just
when one is a decimal with the text of another number, code that is the text of the other one (or the
same code with another scope), or a regular expression with its slash in another place, or they are
arrays or documents: ones that are built alike and have parts in one place that clash, or ones whose
common text is cut into their parts in two ways.  They are equal although they do not read the same, just
when one is no number at all and the other one is a number, or one is the negative zero and the other one
another zero, or one is a whole number from `2 ^ 53` on that is rounded to the other one and written in
another way, or they are arrays or documents that have the two zeros in one place, or documents with
their keys in different orders, and whose texts are not one by the way they are cut.  Everywhere else a
text stands for just what is equal to the value. -/
theorem mistaken_or_missed_iff (ha : a.WellKeyed) (hb : b.WellKeyed) :
    (a.display = b.display ∧ a.equals b = false ↔ Mistaken a b ∨ Mistaken b a) ∧
      (a.equals b = true ∧ a.display ≠ b.display ↔ Missed a b ∨ Missed b a) := by
  refine ⟨⟨fun ⟨h, hequals⟩ => mistaken_of_different ha hb h hequals, ?_⟩,
    ⟨fun ⟨h, hdisplay⟩ => missed_of_equal hb h hdisplay, ?_⟩⟩
  · rintro (h | h)
    · exact h.different ha hb
    · obtain ⟨hdisplay, hequals⟩ := h.different hb ha
      exact ⟨hdisplay.symm, (equals_comm ha hb).trans hequals⟩
  · rintro (h | h)
    · exact h.equal hb
    · obtain ⟨hequals, hdisplay⟩ := h.equal ha
      exact ⟨(equals_comm ha hb).trans hequals, hdisplay.symm⟩

/-- Code is written without its scope, and a text without escapes for its quotes. -/
example : ∀ pair ∈ [(codeWithScope "f" [], codeWithScope "f" [("x", .int32 1)]),
      (document [("a", .string "1\", \"b\": \"2")], document [("a", .string "1"), ("b", .string "2")])],
    pair.1.display = pair.2.display ∧ pair.1.equals pair.2 = false := by decide

namespace SpanAsId

/-! A span of pages as an id, and the same span with its keys in the other order. -/

def span : Value := .document [("from", .int32 1), ("to", .int32 2)]

def turned : Value := .document [("to", .int32 2), ("from", .int32 1)]

theorem wellKeyed_span : span.WellKeyed := by
  simp [span, WellKeyed, WellKeyedFields, Keyed.Distinct, Keyed.keys]

theorem wellKeyed_turned : turned.WellKeyed := by
  simp [turned, WellKeyed, WellKeyedFields, Keyed.Distinct, Keyed.keys]

theorem legible_span : span.Legible := by
  refine .document (by decide) fun field hfield => ?_
  simp only [List.mem_cons, List.not_mem_nil, or_false] at hfield
  rcases hfield with rfl | rfl <;> exact .scalar trivial trivial

theorem legible_turned : turned.Legible := by
  refine .document (by decide) fun field hfield => ?_
  simp only [List.mem_cons, List.not_mem_nil, or_false] at hfield
  rcases hfield with rfl | rfl <;> exact .scalar trivial trivial

/-- The two are equal and read in different ways. -/
theorem turned_missed : (span.WellKeyed ∧ turned.WellKeyed) ∧
    span.equals turned = true ∧ span.display ≠ turned.display :=
  ⟨⟨wellKeyed_span, wellKeyed_turned⟩, (mistaken_or_missed_iff wellKeyed_span wellKeyed_turned).2.2
    (.inl (.inside id id (by decide) (.here (.keys (by decide)))
      fun hcrossing => hcrossing.illegible ⟨legible_span, legible_turned⟩))⟩

/-- So texts and equality disagree on them, and also on the decimal `1` and the whole number `1`, which
are different and read the same. -/
theorem texts_part_from_equality :
    ¬(span.display = turned.display ↔ span.equals turned = true) ∧
      ¬((Value.decimal ⟨false, .finite 1 0⟩).display = (Value.int32 1).display ↔
        (Value.decimal ⟨false, .finite 1 0⟩).equals (.int32 1) = true) := by
  decide

end SpanAsId

end Value

end DocQuery
