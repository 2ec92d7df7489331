import DocQuery.Proofs.Number.Rounding
import DocQuery.Value.Order
import Mathlib.Data.Set.List

/-!
# Where the order of values is one

Seen from its other side a comparison of values is always turned round (`Value.compare_swap`).  It is
transitive among values that are built from scalars without a blur (`Value.order_laws`): a scalar blurs
two others if it counts as equal to both, although they differ.  That is what a value without a place
does in a bracket that has places, and what a number of the binary format does to the whole numbers
that are rounded to it.  Arrays and documents are compared as lists are in a dictionary and blur
nothing by themselves.
-/

namespace DocQuery.Value

/-! ### Scalars and what is built from them -/

/-- A value that is no array and no document. -/
def IsScalar : Value → Prop
  | .array _ => False
  | .document _ => False
  | _ => True

/-- A scalar that is the same as nothing but itself: neither a number of the binary format nor code with
a scope. -/
def IsRigid : Value → Prop
  | .double _ => False
  | .codeWithScope _ _ => False
  | .array _ => False
  | .document _ => False
  | _ => True

theorem IsRigid.isScalar {value : Value} (h : value.IsRigid) : value.IsScalar := by
  cases value <;> trivial

theorem IsRigid.same_iff {a b : Value} (ha : a.IsRigid) : a.same b = true ↔ a = b := by
  cases a
  case double x => exact absurd ha id
  case codeWithScope s scope => exact absurd ha id
  case array items => exact absurd ha id
  case document fields => exact absurd ha id
  all_goals cases b <;> simp [same]

theorem IsRigid.not_same_iff {a b : Value} (ha : a.IsRigid) : a.same b = false ↔ a ≠ b := by
  rw [Bool.eq_false_iff, ne_eq, ha.same_iff]

theorem IsScalar.cases {value : Value} (h : value.IsScalar) : value.IsRigid ∨
    (∃ x, value = .double x) ∨ ∃ s scope, value = .codeWithScope s scope := by
  cases value
  case double x => exact .inr (.inl ⟨x, rfl⟩)
  case codeWithScope s scope => exact .inr (.inr ⟨s, scope, rfl⟩)
  all_goals first | exact .inl trivial | exact absurd h id

/-- Induction over values: what holds of the items of an array, or of the values of a document or of a
scope, is known of each of them. -/
theorem ind_scoped {P : Value → Prop} (rigid : ∀ value : Value, value.IsRigid → P value)
    (double : ∀ x, P (.double x))
    (codeWithScope : ∀ s, ∀ scope : Document, (∀ field ∈ scope, P field.2) → P (.codeWithScope s scope))
    (array : ∀ items, (∀ item ∈ items, P item) → P (.array items))
    (document : ∀ fields : Document, (∀ field ∈ fields, P field.2) → P (.document fields)) :
    ∀ value, P value := by
  intro value
  apply Value.rec (motive_1 := P) (motive_2 := fun fields => ∀ field ∈ fields, P field.2)
    (motive_3 := fun items => ∀ item ∈ items, P item) (motive_4 := fun field => P field.2)
  case double => exact double
  case codeWithScope => exact codeWithScope
  case document => exact document
  case array => exact array
  case nil => simp
  case nil => simp
  case cons => exact fun field rest hfield hrest => List.forall_mem_cons.2 ⟨hfield, hrest⟩
  case cons => exact fun item rest hitem hrest => List.forall_mem_cons.2 ⟨hitem, hrest⟩
  case mk => exact fun key value hvalue => hvalue
  all_goals intros; exact rigid _ trivial

/-- Induction over values where nothing depends on the values of a scope. -/
theorem ind {P : Value → Prop} (scalar : ∀ value : Value, value.IsScalar → P value)
    (array : ∀ items, (∀ item ∈ items, P item) → P (.array items))
    (document : ∀ fields : Document, (∀ field ∈ fields, P field.2) → P (.document fields)) :
    ∀ value, P value := by
  intro value
  induction value using ind_scoped with
  | rigid value h => exact scalar value h.isScalar
  | double x => exact scalar _ trivial
  | codeWithScope s scope => exact scalar _ trivial
  | array items ih => exact array items ih
  | document fields ih => exact document fields ih

/-- A value whose scalars, however deep, are all of one kind. -/
inductive BuiltFrom (P : Value → Prop) : Value → Prop
  | scalar {value : Value} (h : value.IsScalar) (hP : P value) : BuiltFrom P value
  | array {items : List Value} (h : ∀ item ∈ items, BuiltFrom P item) : BuiltFrom P (.array items)
  | document {fields : Document} (h : ∀ field ∈ fields, BuiltFrom P field.2) :
    BuiltFrom P (.document fields)

variable {x y z : Value}

/-! ### Brackets -/

/-- The values of the bracket of a scalar are scalars. -/
theorem IsScalar.of_bracket (hx : x.IsScalar) (h : x.bracket = y.bracket) : y.IsScalar := by
  cases y <;> first | trivial | (cases x <;> first | cases h; done | exact hx)

theorem compare_of_bracket_ne (h : x.bracket ≠ y.bracket) :
    x.compare y = Ord.compare x.bracket y.bracket := by
  unfold compare
  exact if_pos h

theorem bracket_le (h : (x.compare y).isLE = true) : x.bracket ≤ y.bracket := by
  by_cases hbracket : x.bracket = y.bracket
  · exact hbracket.le
  · rw [compare_of_bracket_ne hbracket] at h
    exact Std.isLE_compare.1 h

/-- Values of three brackets are in one line, so only inside of a bracket can the order fail. -/
theorem isLE_of_brackets (hxy : (x.compare y).isLE = true) (hyz : (y.compare z).isLE = true)
    (h : x.bracket = y.bracket → z.bracket = y.bracket → (x.compare z).isLE = true) :
    (x.compare z).isLE = true := by
  have hle := bracket_le hxy
  have hle' := bracket_le hyz
  by_cases hbracket : x.bracket = z.bracket
  · exact h (by omega) (by omega)
  · rw [compare_of_bracket_ne hbracket]
    exact Std.isLE_compare.2 (by omega)

/-! ### Numbers -/

/-- A whole number. -/
def whole? : Value → Option Int
  | .int32 n => some n.toInt
  | .int64 n => some n.toInt
  | _ => none

/-- The place of a number on the line of integers, after it is rounded to the binary format. -/
def place? (value : Value) : Option Int :=
  value.asDouble?.bind fun x => if x.isNaN then none else some x.rank

theorem place?_of_whole {m : Int} (h : x.whole? = some m) :
    x.place? = some (Double.ofInt m).rank := by
  cases x <;> cases h <;> simp [place?, asDouble?, Double.isNaN_ofInt]

theorem bracket_of_whole {m : Int} (h : x.whole? = some m) : x.bracket = 2 := by
  cases x <;> first | rfl | cases h

theorem compare_numbers (hx : x.bracket = 2) (hy : y.bracket = 2) :
    x.compare y = compareNumbers x y := by
  unfold compare
  rw [if_neg (by rw [hx, hy]; exact fun h => h rfl)]
  cases x <;> cases hx <;> rfl

theorem compareNumbers_of_whole {m n : Int} (hx : x.whole? = some m) (hy : y.whole? = some n) :
    compareNumbers x y = Ord.compare m n := by
  cases x <;> cases hx <;> cases y <;> cases hy <;> rfl

theorem whole_or_not (x y : Value) : (x.whole? = none ∨ y.whole? = none) ∨
    ∃ m n, x.whole? = some m ∧ y.whole? = some n := by
  cases hx : x.whole? with
  | none => exact .inl (.inl rfl)
  | some m =>
    cases hy : y.whole? with
    | none => exact .inl (.inr rfl)
    | some n => exact .inr ⟨m, n, rfl, rfl⟩

/-- Two numbers that are not both whole are ordered by their places. -/
theorem compareNumbers_of_place (h : x.whole? = none ∨ y.whole? = none) : compareNumbers x y =
    (x.place?.bind fun i => y.place?.map fun j => Ord.compare i j).getD .eq := by
  have hdoubles : compareNumbers x y =
      (x.asDouble?.bind fun a => y.asDouble?.bind fun b => a.compare? b).getD .eq := by
    unfold compareNumbers
    split
    case h_5 => cases x.asDouble? <;> cases y.asDouble? <;> rfl
    all_goals simp [whole?] at h
  rw [hdoubles, place?, place?]
  cases x.asDouble? with
  | none => rfl
  | some a =>
    cases y.asDouble? with
    | none => cases ha : a.isNaN <;> simp [ha]
    | some b =>
      cases ha : a.isNaN <;> cases hb : b.isNaN <;> simp [Double.compare?, ha, hb]

theorem place_le {i j : Int} (hx : x.place? = some i) (hy : y.place? = some j)
    (h : (compareNumbers x y).isLE = true) : i ≤ j := by
  rcases whole_or_not x y with hwhole | ⟨m, n, hm, hn⟩
  · rw [compareNumbers_of_place hwhole, hx, hy] at h
    exact Std.isLE_compare.1 h
  · rw [compareNumbers_of_whole hm hn] at h
    rw [place?_of_whole hm] at hx
    rw [place?_of_whole hn] at hy
    cases hx
    cases hy
    exact Double.rank_ofInt_le (Std.isLE_compare.1 h)

/-! ### Blurs -/

/-- A value without a place in a bracket that has places: it counts as equal to all the others. -/
inductive Unordered : Value → Prop
  | nan {d : Double} (h : d.isNaN = true) : Unordered (.double d)
  | decimal (d : Decimal128) : Unordered (.decimal d)
  | symbol (s : String) : Unordered (.symbol s)

/-- `y` counts as equal to `x` and to `z`, although `x` is greater than `z`. -/
inductive Blurs (y x z : Value) : Prop
  /-- since `y` has no place of its own -/
  | unordered (hy : y.Unordered) (hx : x.bracket = y.bracket) (hz : z.bracket = y.bracket)
    (h : x.compare z = .gt)
  /-- since both are rounded to `y` -/
  | rounded {d : Double} {m n : Int} (hy : y = .double d) (hx : x.whole? = some m)
    (hz : z.whole? = some n) (h : n < m) (hm : d.compare? (Double.ofInt m) = some .eq)
    (hn : d.compare? (Double.ofInt n) = some .eq)

theorem unordered_of_place?_eq_none (hbracket : y.bracket = 2) (h : y.place? = none) :
    y.Unordered := by
  cases y <;> cases hbracket
  case int32 n => rw [place?_of_whole rfl] at h; cases h
  case int64 n => rw [place?_of_whole rfl] at h; cases h
  case double d =>
    refine .nan ?_
    cases hd : d.isNaN with
    | true => rfl
    | false => simp [place?, asDouble?, hd] at h
  case decimal d => exact .decimal d

theorem place?_of_unordered (hbracket : y.bracket = 2) (h : y.Unordered) : y.place? = none := by
  cases h with
  | nan h => simp [place?, asDouble?, h]
  | decimal d => rfl
  | symbol s => cases hbracket

theorem whole?_of_place?_eq_none (h : y.place? = none) : y.whole? = none := by
  cases hwhole : y.whole? with
  | none => rfl
  | some n => rw [place?_of_whole hwhole] at h; cases h

theorem eq_double_of_place? {j : Int} (hj : y.place? = some j) (h : y.whole? = none) :
    ∃ d : Double, y = .double d ∧ d.isNaN = false ∧ d.rank = j := by
  cases y <;> first | cases h; done | cases hj | skip
  case double d => exact ⟨d, rfl, by simpa [place?, asDouble?] using hj⟩

/-- Numbers are in one line as long as the middle one does not blur the others. -/
theorem isLE_numbers (hx : x.bracket = 2) (hy : y.bracket = 2) (hz : z.bracket = 2)
    (hblurs : ¬Blurs y x z) (hxy : (x.compare y).isLE = true) (hyz : (y.compare z).isLE = true) :
    (x.compare z).isLE = true := by
  rw [Ordering.isLE_iff_ne_gt]
  intro hgt
  rw [compare_numbers hx hy] at hxy
  rw [compare_numbers hy hz] at hyz
  have hnumbers := hgt
  rw [compare_numbers hx hz] at hnumbers
  cases hj : y.place? with
  | none => exact hblurs (.unordered (unordered_of_place?_eq_none hy hj) (hx.trans hy.symm)
      (hz.trans hy.symm) hgt)
  | some j =>
    rcases whole_or_not x z with hwhole | ⟨m, n, hm, hn⟩
    · -- the places of the three tell
      rw [compareNumbers_of_place hwhole] at hnumbers
      cases hi : x.place? with
      | none => rw [hi] at hnumbers; cases hnumbers
      | some i =>
      cases hk : z.place? with
      | none => rw [hi, hk] at hnumbers; cases hnumbers
      | some k =>
      rw [hi, hk] at hnumbers
      have hle := place_le hi hj hxy
      have hle' := place_le hj hk hyz
      have hlt := Std.compare_eq_gt.1 hnumbers
      omega
    · rw [compareNumbers_of_whole hm hn] at hnumbers
      have hlt : n < m := Std.compare_eq_gt.1 hnumbers
      cases hl : y.whole? with
      | some l =>
        rw [compareNumbers_of_whole hm hl] at hxy
        rw [compareNumbers_of_whole hl hn] at hyz
        have hle := Std.isLE_compare.1 hxy
        have hle' := Std.isLE_compare.1 hyz
        omega
      | none =>
        -- both are rounded to the place of the middle one
        obtain ⟨d, rfl, hd, rfl⟩ := eq_double_of_place? hj hl
        have hle := place_le (place?_of_whole hm) hj hxy
        have hle' := place_le hj (place?_of_whole hn) hyz
        have hrank := Double.rank_ofInt_le hlt.le
        have hplaces : d.rank = (Double.ofInt m).rank ∧ d.rank = (Double.ofInt n).rank := by omega
        exact hblurs (.rounded rfl hm hn hlt
          (by rw [d.compare?_ofInt hd, ← hplaces.1, Std.compare_self])
          (by rw [d.compare?_ofInt hd, ← hplaces.2, Std.compare_self]))

/-! ### Texts and the other scalars -/

theorem isLE_texts (hx : x.bracket = 3) (hy : y.bracket = 3) (hz : z.bracket = 3)
    (hblurs : ¬Blurs y x z) (hxy : (x.compare y).isLE = true) (hyz : (y.compare z).isLE = true) :
    (x.compare z).isLE = true := by
  rw [Ordering.isLE_iff_ne_gt]
  intro hgt
  cases y <;> cases hy
  case symbol s => exact hblurs (.unordered (.symbol s) hx hz hgt)
  case string s =>
    cases x <;> cases hx <;> cases z <;> cases hz <;> first | cases hgt | skip
    case string t u => exact Ordering.isLE_iff_ne_gt.1 (Std.TransOrd.isLE_trans hxy hyz) hgt

/-- What tells two values apart in a bracket that is neither of numbers nor of texts. -/
def key : Value → Int
  | .objectId oid => oid.word.toNat
  | .boolean b => b.toNat
  | .date t => t.milliseconds.toInt
  | _ => 0

theorem compare_natCast (m n : Nat) : Ord.compare (m : Int) (n : Int) = Ord.compare m n := by
  simp only [Ord.compare, compareOfLessAndEq, Int.ofNat_lt, Int.ofNat_inj]

theorem compare_of_key (hx : x.IsScalar) (h : x.bracket = y.bracket) (hnumber : x.bracket ≠ 2)
    (htext : x.bracket ≠ 3) : x.compare y = Ord.compare x.key y.key := by
  unfold compare
  rw [if_neg (not_not_intro h)]
  cases x <;> first | exact absurd rfl hnumber | exact absurd rfl htext | exact hx.elim | skip
  all_goals cases y <;> cases h <;> first | rfl | exact (compare_natCast _ _).symm

/-- Scalars of one bracket are in one line as long as the middle one does not blur the others. -/
theorem isLE_scalars (hx : x.IsScalar) (hy : y.IsScalar) (hxy : x.bracket = y.bracket)
    (hzy : z.bracket = y.bracket) (hblurs : ¬Blurs y x z) (hle : (x.compare y).isLE = true)
    (hle' : (y.compare z).isLE = true) : (x.compare z).isLE = true := by
  by_cases hnumber : y.bracket = 2
  · exact isLE_numbers (hxy.trans hnumber) hnumber (hzy.trans hnumber) hblurs hle hle'
  by_cases htext : y.bracket = 3
  · exact isLE_texts (hxy.trans htext) htext (hzy.trans htext) hblurs hle hle'
  rw [compare_of_key hx hxy (hxy ▸ hnumber) (hxy ▸ htext)] at hle
  rw [compare_of_key hy hzy.symm hnumber htext] at hle'
  rw [compare_of_key hx (hxy.trans hzy.symm) (hxy ▸ hnumber) (hxy ▸ htext)]
  exact Std.TransOrd.isLE_trans hle hle'

/-! ### Seen from the other side -/

theorem compareNumbers_swap : compareNumbers y x = (compareNumbers x y).swap := by
  rcases whole_or_not x y with hwhole | ⟨m, n, hm, hn⟩
  · rw [compareNumbers_of_place hwhole, compareNumbers_of_place hwhole.symm]
    cases x.place? <;> cases y.place? <;> first | rfl | exact Std.OrientedOrd.eq_swap
  · rw [compareNumbers_of_whole hm hn, compareNumbers_of_whole hn hm]
    exact Std.OrientedOrd.eq_swap

theorem compare_scalar_swap (hx : x.IsScalar) (h : x.bracket = y.bracket) :
    y.compare x = (x.compare y).swap := by
  by_cases hnumber : x.bracket = 2
  · rw [compare_numbers hnumber (h ▸ hnumber), compare_numbers (h ▸ hnumber) hnumber]
    exact compareNumbers_swap
  by_cases htext : x.bracket = 3
  · cases x <;> cases htext <;> cases y <;> cases h <;> first | rfl | exact Std.OrientedOrd.eq_swap
  rw [compare_of_key hx h hnumber htext, compare_of_key (hx.of_bracket h) h.symm (h ▸ hnumber) (h ▸ htext)]
  exact Std.OrientedOrd.eq_swap

theorem compareItems_swap {xs : List Value}
    (h : ∀ x ∈ xs, ∀ y : Value, y.compare x = (x.compare y).swap) :
    ∀ ys, compareItems ys xs = (compareItems xs ys).swap := by
  induction xs with
  | nil => intro ys; cases ys <;> rfl
  | cons x xs ih =>
    intro ys
    cases ys with
    | nil => rfl
    | cons y ys =>
      rw [compareItems, compareItems, Ordering.swap_then, h x List.mem_cons_self,
        ih (fun x hx => h x (List.mem_cons_of_mem _ hx))]

theorem compareFields_swap {xs : Document}
    (h : ∀ x ∈ xs, ∀ y : Value, y.compare x.2 = (x.2.compare y).swap) :
    ∀ ys, compareFields ys xs = (compareFields xs ys).swap := by
  induction xs with
  | nil => intro ys; cases ys <;> rfl
  | cons x xs ih =>
    intro ys
    cases ys with
    | nil => rfl
    | cons y ys =>
      rw [compareFields, compareFields, Ordering.swap_then, Ordering.swap_then,
        h x List.mem_cons_self, ih (fun x hx => h x (List.mem_cons_of_mem _ hx)),
        Std.OrientedOrd.eq_swap (a := y.1) (b := x.1)]

theorem compare_arrays (xs ys : List Value) :
    (Value.array xs).compare (.array ys) = compareItems xs ys := by
  unfold compare
  exact if_neg (not_not_intro rfl)

theorem compare_documents (xs ys : Document) :
    (Value.document xs).compare (.document ys) = compareFields xs ys := by
  unfold compare
  exact if_neg (not_not_intro rfl)

theorem swap_of_brackets (h : x.bracket = y.bracket → y.compare x = (x.compare y).swap) :
    y.compare x = (x.compare y).swap := by
  by_cases hxy : x.bracket = y.bracket
  · exact h hxy
  · rw [compare_of_bracket_ne hxy, compare_of_bracket_ne (Ne.symm hxy)]
    exact Std.OrientedOrd.eq_swap

/-- A comparison from the other side is the same one, turned round. -/
theorem compare_swap (x y : Value) : y.compare x = (x.compare y).swap := by
  induction x using ind generalizing y with
  | scalar x hx => exact swap_of_brackets fun h => compare_scalar_swap hx h
  | array items ih =>
    refine swap_of_brackets fun h => ?_
    cases y <;> cases h
    rw [compare_arrays, compare_arrays]
    exact compareItems_swap ih _
  | document fields ih =>
    refine swap_of_brackets fun h => ?_
    cases y <;> cases h
    rw [compare_documents, compare_documents]
    exact compareFields_swap ih _

theorem compare_self (x : Value) : x.compare x = .eq := by
  have hswap := compare_swap x x
  cases h : x.compare x <;> rw [h] at hswap <;> first | rfl | cases hswap

/-! ### In one line -/

/-- The values of a class are in one line. -/
def InLine (S : Value → Prop) : Prop :=
  ∀ x y z, S x → S y → S z → (x.compare y).isLE = true → (y.compare z).isLE = true →
    (x.compare z).isLE = true

section InLine

variable {S : Value → Prop} (hline : InLine S)
include hline

theorem transCmp_of_inLine {α : Type} (f : α → Value) (hf : ∀ a, S (f a)) :
    Std.TransCmp fun a b => (f a).compare (f b) where
  eq_swap := compare_swap _ _
  isLE_trans hle hle' := hline _ _ _ (hf _) (hf _) (hf _) hle hle'

theorem isLE_items {xs ys zs : List Value} (hx : ∀ x ∈ xs, S x) (hy : ∀ y ∈ ys, S y)
    (hz : ∀ z ∈ zs, S z) (hle : (compareItems xs ys).isLE = true)
    (hle' : (compareItems ys zs).isLE = true) : (compareItems xs zs).isLE = true := by
  have hcmp := transCmp_of_inLine hline (Subtype.val (p := S)) Subtype.property
  have hlex : ∀ xs ys : List (Subtype S), compareItems (xs.map Subtype.val) (ys.map Subtype.val) =
      List.compareLex (fun a b => a.1.compare b.1) xs ys := by
    intro xs
    induction xs with
    | nil => intro ys; cases ys <;> rfl
    | cons x xs ih =>
      intro ys
      cases ys with
      | nil => rfl
      | cons y ys => rw [List.compareLex_cons_cons, ← ih]; rfl
  lift xs to List (Subtype S) using hx
  lift ys to List (Subtype S) using hy
  lift zs to List (Subtype S) using hz
  rw [hlex] at hle hle' ⊢
  exact Std.TransCmp.isLE_trans hle hle'

theorem isLE_fields {xs ys zs : Document} (hx : ∀ x ∈ xs, S x.2) (hy : ∀ y ∈ ys, S y.2)
    (hz : ∀ z ∈ zs, S z.2) (hle : (compareFields xs ys).isLE = true)
    (hle' : (compareFields ys zs).isLE = true) : (compareFields xs zs).isLE = true := by
  have hcmp := transCmp_of_inLine hline
    (fun field : { field : String × Value // S field.2 } => field.1.2) Subtype.property
  have hlex : ∀ xs ys : List { field : String × Value // S field.2 },
      compareFields (xs.map Subtype.val) (ys.map Subtype.val) =
      List.compareLex (compareLex (compareOn fun field => field.1.1)
        fun a b => a.1.2.compare b.1.2) xs ys := by
    intro xs
    induction xs with
    | nil => intro ys; cases ys <;> rfl
    | cons x xs ih =>
      intro ys
      cases ys with
      | nil => rfl
      | cons y ys =>
        rw [List.compareLex_cons_cons, ← ih, compareLex, Ordering.then_assoc]
        rfl
  lift xs to List { field : String × Value // S field.2 } using hx
  lift ys to List { field : String × Value // S field.2 } using hy
  lift zs to List { field : String × Value // S field.2 } using hz
  rw [hlex] at hle hle' ⊢
  exact Std.TransCmp.isLE_trans hle hle'

end InLine

theorem BuiltFrom.scalar_iff {P : Value → Prop} (hx : x.IsScalar) : x.BuiltFrom P ↔ P x := by
  refine ⟨fun h => ?_, .scalar hx⟩
  cases h with
  | scalar _ hP => exact hP
  | array _ => exact hx.elim
  | document _ => exact hx.elim

theorem BuiltFrom.array_iff {P : Value → Prop} {items : List Value} :
    (Value.array items).BuiltFrom P ↔ ∀ item ∈ items, item.BuiltFrom P := by
  refine ⟨fun h => ?_, .array⟩
  cases h with
  | scalar hx _ => exact hx.elim
  | array h => exact h

theorem BuiltFrom.document_iff {P : Value → Prop} {fields : Document} :
    (Value.document fields).BuiltFrom P ↔ ∀ field ∈ fields, field.2.BuiltFrom P := by
  refine ⟨fun h => ?_, .document⟩
  cases h with
  | scalar hx _ => exact hx.elim
  | document h => exact h

/-- The depth to which values are compared is the size they are no greater than. -/
theorem inLine_of_size {P : Value → Prop} (h : ∀ x y z, P x → P y → P z → ¬Blurs y x z) (n : Nat) :
    InLine fun value => value.BuiltFrom P ∧ sizeOf value < n := by
  induction n with
  | zero => exact fun x y z hx => absurd hx.2 (Nat.not_lt_zero _)
  | succ n ih =>
    rintro x y z ⟨hx, hsx⟩ ⟨hy, hsy⟩ ⟨hz, hsz⟩ hle hle'
    refine isLE_of_brackets hle hle' fun hxy hzy => ?_
    cases hy with
    | scalar hscalar hPy =>
      have hscalarx := hscalar.of_bracket hxy.symm
      rw [BuiltFrom.scalar_iff hscalarx] at hx
      rw [BuiltFrom.scalar_iff (hscalar.of_bracket hzy.symm)] at hz
      exact isLE_scalars hscalarx hscalar hxy hzy (h x y z hx hPy hz) hle hle'
    | array hy =>
      cases x <;> cases hxy
      cases z <;> cases hzy
      rw [BuiltFrom.array_iff] at hx hz
      rw [compare_arrays] at hle hle' ⊢
      simp only [array.sizeOf_spec] at hsx hsy hsz
      have hsize {items : List Value} (hsize : 1 + sizeOf items < n + 1) :
          ∀ item ∈ items, sizeOf item < n := fun item hitem => by
        have := List.sizeOf_lt_of_mem hitem
        omega
      exact isLE_items ih (fun x h => ⟨hx x h, hsize hsx x h⟩) (fun y h => ⟨hy y h, hsize hsy y h⟩)
        (fun z h => ⟨hz z h, hsize hsz z h⟩) hle hle'
    | document hy =>
      cases x <;> cases hxy
      cases z <;> cases hzy
      rw [BuiltFrom.document_iff] at hx hz
      rw [compare_documents] at hle hle' ⊢
      simp only [document.sizeOf_spec] at hsx hsy hsz
      have hsize {fields : Document} (hsize : 1 + sizeOf fields < n + 1) :
          ∀ field ∈ fields, sizeOf field.2 < n := fun field hfield => by
        have := List.sizeOf_lt_of_mem hfield
        obtain ⟨key, value⟩ := field
        simp only [Prod.mk.sizeOf_spec] at this ⊢
        omega
      exact isLE_fields ih (fun x h => ⟨hx x h, hsize hsx x h⟩) (fun y h => ⟨hy y h, hsize hsy y h⟩)
        (fun z h => ⟨hz z h, hsize hsz z h⟩) hle hle'

/-! ### What a blur does -/

theorem compare_of_unordered (h : y.Unordered) (hx : x.bracket = y.bracket) :
    x.compare y = .eq := by
  by_cases hnumber : y.bracket = 2
  · have hplace := place?_of_unordered hnumber h
    rw [compare_numbers (hx.trans hnumber) hnumber,
      compareNumbers_of_place (.inr (whole?_of_place?_eq_none hplace)), hplace]
    cases x.place? <;> rfl
  · cases h <;> first | exact absurd rfl hnumber | skip
    cases x <;> cases hx <;> rfl

theorem compare_of_rounded {d : Double} {m : Int} (hx : x.whole? = some m)
    (h : d.compare? (Double.ofInt m) = some .eq) : x.compare (.double d) = .eq := by
  have hnan : d.isNaN = false := by
    cases hd : d.isNaN <;> first | rfl | simp [Double.compare?, hd] at h
  have hplace : (Value.double d).place? = some d.rank := by simp [place?, asDouble?, hnan]
  rw [d.compare?_ofInt hnan, Option.some_inj, Std.LawfulEqOrd.compare_eq_iff_eq] at h
  rw [compare_numbers (bracket_of_whole hx) rfl, compareNumbers_of_place (.inr rfl),
    place?_of_whole hx, hplace, h]
  exact Std.compare_self

namespace Blurs

variable (h : Blurs y x z)
include h

theorem scalars : x.IsScalar ∧ y.IsScalar ∧ z.IsScalar := by
  cases h with
  | unordered hy hx hz =>
    have hscalar : y.IsScalar := by cases hy <;> trivial
    exact ⟨hscalar.of_bracket hx.symm, hscalar, hscalar.of_bracket hz.symm⟩
  | rounded hy hx hz =>
    have hscalar {value : Value} {n : Int} (h : value.whole? = some n) : value.IsScalar := by
      cases value <;> trivial
    exact ⟨hscalar hx, hy ▸ trivial, hscalar hz⟩

theorem compare_eq : x.compare y = .eq ∧ y.compare z = .eq ∧ x.compare z = .gt := by
  cases h with
  | unordered hy hx hz hgt =>
    rw [compare_swap z y, compare_of_unordered hy hx, compare_of_unordered hy hz]
    exact ⟨rfl, rfl, hgt⟩
  | rounded hy hx hz hlt hm hn =>
    subst hy
    rw [compare_swap z, compare_of_rounded hx hm, compare_of_rounded hz hn,
      compare_numbers (bracket_of_whole hx) (bracket_of_whole hz), compareNumbers_of_whole hx hz]
    exact ⟨rfl, rfl, Std.compare_eq_gt.2 hlt⟩

end Blurs

/-! ### The laws -/

/-- **The order of values.**  Every value is equal to itself, and a comparison from the other side is
turned round.  A comparison that is no greater goes on to a third value among all the values that are
built from a class of scalars just when no scalar of the class blurs two others. -/
theorem order_laws (P : Value → Prop) :
    (∀ x : Value, x.compare x = .eq) ∧
      (∀ x y : Value, y.compare x = (x.compare y).swap) ∧
      ((∀ x y z : Value, x.BuiltFrom P → y.BuiltFrom P → z.BuiltFrom P →
          (x.compare y).isLE → (y.compare z).isLE → (x.compare z).isLE) ↔
        ∀ x y z, P x → P y → P z → ¬Blurs y x z) := by
  refine ⟨compare_self, compare_swap, fun hline x y z hx hy hz hblurs => ?_,
    fun h x y z hx hy hz => ?_⟩
  · obtain ⟨hsx, hsy, hsz⟩ := hblurs.scalars
    obtain ⟨hxy, hyz, hxz⟩ := hblurs.compare_eq
    have hle := hline x y z (.scalar hsx hx) (.scalar hsy hy) (.scalar hsz hz) (by rw [hxy]; rfl)
      (by rw [hyz]; rfl)
    rw [hxz] at hle
    cases hle
  · have hsizes := inLine_of_size h (sizeOf x + sizeOf y + sizeOf z + 1)
    exact hsizes x y z ⟨hx, by omega⟩ ⟨hy, by omega⟩ ⟨hz, by omega⟩

/-- Not all values are in one line: `2 ^ 53 + 1` and `2 ^ 53` both count as equal to the number of
the binary format that the first is rounded to, and yet the first is greater than the second. -/
theorem compare_not_transitive :
    (Value.int64 9007199254740993).compare (.double ⟨0x4340000000000000⟩) = .eq ∧
      (Value.double ⟨0x4340000000000000⟩).compare (.int64 9007199254740992) = .eq ∧
      (Value.int64 9007199254740993).compare (.int64 9007199254740992) = .gt := by
  decide +kernel

end DocQuery.Value
