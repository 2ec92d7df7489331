import DocQuery.Value.Display
import DocQuery.Value.Order

/-!
# Ids and their texts

Documents are found by the values of their ids, and told apart afterwards by the texts of these
values.  For the values that name documents this is the same (`Value.equals_iff_display_eq`): the
first character of such a text tells the kind of the value, and inside of a kind no two values read
the same.
-/

namespace DocQuery

/-! ### Digits in base sixteen -/

namespace Text

theorem hexDigit?_digitChar {d : Nat} (h : d < 16) : hexDigit? d.digitChar = some d := by
  have hall : ∀ d : Fin 16, hexDigit? d.val.digitChar = some d.val := by decide
  exact hall ⟨d, h⟩

theorem hexValue?_toDigits (n : Nat) : hexValue? (Nat.toDigits 16 n) = some n := by
  induction n using Nat.strongRecOn with
  | ind n ih =>
    rw [Nat.toDigits_eq_if (by decide)]
    split
    · next h => simp [hexValue?, hexDigit?_digitChar h]
    · next h =>
      have hfront := ih (n / 16) (by omega)
      have hlast := hexDigit?_digitChar (Nat.mod_lt n (by decide : 0 < 16))
      rw [hexValue?] at hfront ⊢
      rw [List.foldlM_append, hfront]
      simp [hlast, Nat.div_add_mod]

/-- Digits in base sixteen read as the number that they were written for. -/
theorem hexValue?_hexPadded (width n : Nat) : hexValue? (hexPadded width n) = some n := by
  have hzeros : ∀ count, hexValue? (List.replicate count '0') = some 0 := by
    intro count
    induction count with
    | zero => rfl
    | succ count ih => exact ih
  have hdigits := hexValue?_toDigits n
  have hfront := hzeros (width - (Nat.toDigits 16 n).length)
  rw [hexValue?] at hdigits hfront ⊢
  rw [hexPadded, List.foldlM_append, hfront]
  exact hdigits

end Text

/-- No two object ids read the same. -/
theorem ObjectId.text_injective {id other : ObjectId} (h : id.text = other.text) : id = other := by
  have hdigits := congrArg Text.hexValue? (String.ofList_injective h)
  rw [Text.hexValue?_hexPadded, Text.hexValue?_hexPadded] at hdigits
  obtain ⟨word⟩ := id
  exact congrArg ObjectId.mk (BitVec.eq_of_toNat_eq (Option.some.inj hdigits))

/-! ### Ids -/

namespace Value

/-- The kinds of values that name documents. -/
inductive IsId : Value → Prop
  | objectId (id : ObjectId) : IsId (.objectId id)
  | string (s : String) : IsId (.string s)
  | boolean (b : Bool) : IsId (.boolean b)
  | int32 (n : Int32) : IsId (.int32 n)
  | int64 (n : Int64) : IsId (.int64 n)

variable {a b : Value}

/-- The bracket of an id, as the first character of its text tells it. -/
def bracketOfText (s : String) : Nat :=
  match s.toList.head? with
  | some 'O' => 7
  | some '"' => 3
  | some 't' => 8
  | some 'f' => 8
  | _ => 2

theorem exists_digit_cons_repr (n : Nat) : ∃ c rest, n.repr.toList = c :: rest ∧ c.isDigit = true := by
  obtain ⟨c, rest, hdigits⟩ := List.exists_cons_of_ne_nil (Nat.toDigits_ne_nil (b := 10) (n := n))
  refine ⟨c, rest, by rw [Nat.repr_eq_ofList_toDigits, String.toList_ofList, hdigits], ?_⟩
  have hmem : c ∈ Nat.toDigits 10 n := hdigits ▸ List.mem_cons_self
  exact Nat.isDigit_of_mem_toDigits (by decide) (by decide) hmem

theorem repr_nat_injective {m n : Nat} (h : m.repr = n.repr) : m = n := by
  rw [Nat.repr_eq_ofList_toDigits, Nat.repr_eq_ofList_toDigits] at h
  have hdigits := congrArg (fun digits => Nat.ofDigitChars 10 digits 0) (String.ofList_injective h)
  simpa only [Nat.ofDigitChars_toDigits (b := 10) (by decide) (by decide)] using hdigits

theorem repr_nat_ne_negative (m n : Nat) : m.repr ≠ "-" ++ n.repr := by
  intro h
  obtain ⟨c, rest, hcons, hc⟩ := exists_digit_cons_repr m
  have hlist := congrArg String.toList h
  rw [hcons, String.toList_append] at hlist
  obtain rfl : c = '-' := (List.cons.inj hlist).1
  exact absurd hc (by decide)

/-- No two whole numbers read the same. -/
theorem toString_int_injective {x y : Int} (h : toString x = toString y) : x = y := by
  have h : x.repr = y.repr := h
  rw [Int.repr_eq_if, Int.repr_eq_if] at h
  split at h
  · split at h
    · have hsize := repr_nat_injective h
      omega
    · exact absurd h (repr_nat_ne_negative _ _)
  · split at h
    · exact absurd h.symm (repr_nat_ne_negative _ _)
    · have hsize := repr_nat_injective ((String.append_right_inj "-").1 h)
      omega

theorem bracketOfText_int (n : Int) : bracketOfText (toString n) = 2 := by
  have hnat : ∀ n : Nat, bracketOfText n.repr = 2 := by
    intro n
    obtain ⟨c, rest, hcons, hc⟩ := exists_digit_cons_repr n
    rw [bracketOfText, hcons, List.head?_cons]
    split
    · next heq => exact absurd (Option.some.inj heq ▸ hc) (by decide)
    · next heq => exact absurd (Option.some.inj heq ▸ hc) (by decide)
    · next heq => exact absurd (Option.some.inj heq ▸ hc) (by decide)
    · next heq => exact absurd (Option.some.inj heq ▸ hc) (by decide)
    · rfl
  show bracketOfText n.repr = 2
  rw [Int.repr_eq_if]
  split
  · exact hnat _
  · rw [bracketOfText, String.toList_append]
    rfl

theorem bracketOfText_display (h : a.IsId) : bracketOfText a.display = a.bracket := by
  cases h with
  | objectId id => simp [display, bracketOfText, bracket]
  | string s => simp [display, bracketOfText, bracket]
  | boolean b => cases b <;> rfl
  | int32 n => exact bracketOfText_int n.toInt
  | int64 n => exact bracketOfText_int n.toInt

/-- Two ids are equal to filters if and only if they read the same. -/
theorem equals_iff_display_eq (ha : a.IsId) (hb : b.IsId) :
    a.equals b = true ↔ a.display = b.display := by
  have hnumbers : ∀ x y : Int, (Ord.compare x y == .eq) = true ↔ toString x = toString y := by
    intro x y
    rw [beq_iff_eq, Std.compare_eq_iff_eq]
    exact ⟨congrArg toString, toString_int_injective⟩
  by_cases hbracket : a.bracket = b.bracket
  · cases ha <;> cases hb <;> first | (simp [bracket] at hbracket; done) | skip
    case objectId.objectId id other =>
      show (id == other) = true ↔ "ObjectId(\"" ++ id.text ++ "\")" = "ObjectId(\"" ++ other.text ++ "\")"
      rw [beq_iff_eq, String.append_left_inj, String.append_right_inj]
      exact ⟨congrArg ObjectId.text, ObjectId.text_injective⟩
    case string.string s t =>
      show (s == t) = true ↔ "\"" ++ s ++ "\"" = "\"" ++ t ++ "\""
      rw [beq_iff_eq, String.append_left_inj, String.append_right_inj]
    case boolean.boolean b c => cases b <;> cases c <;> decide
    all_goals exact hnumbers _ _
  · have hdisplay : a.display ≠ b.display := by
      intro h
      rw [← bracketOfText_display ha, ← bracketOfText_display hb, h] at hbracket
      exact hbracket rfl
    refine iff_of_false ?_ hdisplay
    cases ha <;> cases hb <;> first | exact Bool.false_ne_true | exact absurd rfl hbracket

end Value

end DocQuery
