import DocQuery.Proofs.Calendar
import DocQuery.Proofs.Path.WellKeyed
import DocQuery.Proofs.Text.Bytes
import DocQuery.Proofs.Value.Order

/-!
# What the text of a value tells

The beginning of a text tells its kind (`Value.headingOf_display`), unless it is the text of code, and
inside of a kind the text tells the value, as long as it is a scalar: only numbers of different kinds
can read the same, and regular expressions, whose parts are written without a quote around them
(`Value.SameKind.eq_or_numbers`).
-/

namespace DocQuery

open Text

/-! ### Numbers -/

/-- The text of a number: a digit, a sign or the first letter of a word, and no character that stands
between values. -/
structure Numeric (cs : List Char) : Prop where
  first : ∃ c rest, cs = c :: rest ∧ (c.isDigit = true ∨ c ∈ ['-', 'N', 'I', 'i'])
  chars : ∀ c ∈ cs, c.isDigit = true ∨ c ∈ "+-.ENaInfity".toList

variable {cs : List Char}

theorem Double.IsNumeral.numeric (h : IsNumeral cs) : Numeric cs := by
  obtain ⟨c, rest, hcons, hc⟩ := h.first
  refine ⟨⟨c, rest, hcons, .inl hc⟩, fun d hd => (h.digits d hd).imp id ?_⟩
  rintro rfl
  decide

theorem Numeric.signed (h : Numeric cs) (negative : Bool) :
    Numeric ((if negative then ['-'] else []) ++ cs) := by
  cases negative
  · exact h
  · exact ⟨⟨'-', cs, rfl, .inr (by decide)⟩, List.forall_mem_cons.2 ⟨.inr (by decide), h.chars⟩⟩

theorem numericChars_of_all {word : List Char}
    (h : word.all (fun c => c.isDigit || "+-.ENaInfity".toList.contains c) = true) :
    ∀ c ∈ word, c.isDigit = true ∨ c ∈ "+-.ENaInfity".toList := by
  intro c hc
  simpa only [Bool.or_eq_true, List.contains_iff_mem] using List.all_eq_true.1 h c hc

theorem Double.numeric_display (x : Double) : Numeric x.display.toList := by
  cases hnan : x.isNaN with
  | true =>
    rw [display_of_nan hnan]
    exact ⟨⟨'N', ['a', 'N'], rfl, by decide⟩, numericChars_of_all (by decide)⟩
  | false =>
    obtain ⟨body, htext, hbody⟩ := exists_display hnan
    rw [htext]
    refine Numeric.signed ?_ _
    rcases hbody with ⟨-, rfl⟩ | ⟨-, hnumeral, -⟩
    · exact ⟨⟨'i', ['n', 'f'], rfl, by decide⟩, numericChars_of_all (by decide)⟩
    · exact hnumeral.numeric

namespace Decimal128

/-- Without an exponent a decimal is written as the other numbers are. -/
theorem finiteText_eq {coefficient : Nat} {exponent : Int} (hexponent : exponent < 0)
    (hleading : -6 ≤ exponent + (Nat.toDigits 10 coefficient).length - 1) :
    finiteText coefficient exponent =
      Double.positionalText false (Nat.toDigits 10 coefficient) exponent := by
  unfold finiteText Double.positionalText
  dsimp only
  rw [if_neg (by omega), if_pos (by simp [hexponent, hleading]), if_neg (show ¬0 ≤ exponent by omega)]
  by_cases hlength : (Nat.toDigits 10 coefficient).length ≤ (-exponent).toNat
  · rw [if_pos hlength, if_neg (by omega)]
  · rw [if_neg hlength, if_pos (by omega)]

theorem numeric_finiteText (coefficient : Nat) (exponent : Int) :
    Numeric (finiteText coefficient exponent) := by
  have hdigits := isDigit_of_mem_toDigits (n := coefficient)
  by_cases hzero : exponent = 0
  · rw [finiteText, if_pos hzero]
    exact (Double.isNumeral_toDigits coefficient).numeric
  · by_cases hpositional : exponent < 0 ∧ -6 ≤ exponent + (Nat.toDigits 10 coefficient).length - 1
    · rw [finiteText_eq hpositional.1 hpositional.2]
      exact Double.IsNumeral.numeric
        ⟨Double.exists_digit_cons_positionalText Nat.toDigits_ne_nil hdigits _,
          Double.mem_positionalText hdigits⟩
    · unfold finiteText
      dsimp only
      rw [if_neg hzero, if_neg (by simpa using hpositional)]
      obtain ⟨first, more, hcons⟩ :=
        List.exists_cons_of_ne_nil (Nat.toDigits_ne_nil (b := 10) (n := coefficient))
      rw [hcons] at hdigits ⊢
      obtain ⟨hfirst, hmore⟩ := List.forall_mem_cons.1 hdigits
      refine ⟨⟨first, _, rfl, .inl hfirst⟩, ?_⟩
      simp only [List.forall_mem_append, List.forall_mem_cons]
      refine ⟨⟨⟨fun c hc => .inl (hdigits c (List.mem_of_mem_take hc)), ?_⟩, .inr (by decide), ?_⟩,
        fun c hc => .inl (isDigit_of_mem_toDigits c hc)⟩
      · split
        · exact fun c hc => nomatch hc
        · exact List.forall_mem_cons.2 ⟨.inr (by decide), fun c hc => .inl (hmore c hc)⟩
      · split
        · exact numericChars_of_all (by decide)
        · split <;> exact numericChars_of_all (by decide)

theorem numeric_text (d : Decimal128) : Numeric d.text.toList := by
  obtain ⟨negative, size⟩ := d
  have hinfinity : Numeric "Infinity".toList :=
    ⟨⟨'I', "nfinity".toList, rfl, by decide⟩, numericChars_of_all (by decide)⟩
  cases size with
  | nan signalling =>
    show Numeric "NaN".toList
    exact ⟨⟨'N', ['a', 'N'], rfl, by decide⟩, numericChars_of_all (by decide)⟩
  | infinite =>
    show Numeric (String.ofList _).toList
    rw [String.toList_ofList]
    exact hinfinity.signed negative
  | finite coefficient exponent =>
    show Numeric (String.ofList _).toList
    rw [String.toList_ofList]
    exact (numeric_finiteText coefficient exponent).signed negative

end Decimal128

namespace Value

variable {a b : Value}

theorem numeric_display (h : a.bracket = 2) : Numeric a.display.toList := by
  have hwhole : ∀ n : Int, Numeric (toString n).toList := fun n => by
    rw [Double.toList_toString_int]
    exact (Double.isNumeral_toDigits _).numeric.signed _
  cases a <;> first | cases h; done | skip
  case int32 n => exact hwhole n.toInt
  case int64 n => exact hwhole n.toInt
  case double x => exact x.numeric_display
  case decimal d => exact d.numeric_text

/-! ### The kinds of texts -/

/-- The code that a value is, with or without a scope. -/
def code? : Value → Option String
  | .code s => some s
  | .codeWithScope s _ => some s
  | _ => none

theorem display_of_code? {s : String} (h : a.code? = some s) : a.display = s := by
  cases a <;> cases h <;> simp only [display]

theorem isScalar_of_code? {s : String} (h : a.code? = some s) : a.IsScalar := by
  cases a <;> cases h <;> trivial

/-- A letter for each kind of text: mostly the first character, and one letter for all numbers. -/
def heading : Value → Char
  | .null => 'n'
  | .undefined => 'u'
  | .minKey => 'M'
  | .maxKey => 'M'
  | .boolean b => if b then 't' else 'f'
  | .int32 _ => '0'
  | .int64 _ => '0'
  | .double _ => '0'
  | .decimal _ => '0'
  | .string _ => '"'
  | .symbol _ => 'S'
  | .code _ => 'c'
  | .codeWithScope _ _ => 'c'
  | .document _ => '\x7b'
  | .array _ => '['
  | .objectId _ => 'O'
  | .date _ => 'D'
  | .regex _ _ => '/'
  | .timestamp _ _ => 'T'
  | .binary _ _ => 'B'
  | .dbPointer _ _ => 'b'

/-- The kind of text that begins like this: the first character tells it, but dates and pointers have
that in common. -/
def headingOf : List Char → Char
  | 'D' :: 'b' :: _ => 'b'
  | c :: _ => if c.isDigit ∨ c ∈ ['-', 'N', 'I', 'i'] then '0' else c
  | [] => ' '

theorem headingOf_numeric (h : Numeric cs) (rest : List Char) : headingOf (cs ++ rest) = '0' := by
  obtain ⟨c, more, rfl, hc⟩ := h.first
  rw [List.cons_append, headingOf]
  · exact if_pos hc
  · rintro _ rfl
    exact absurd hc (by decide)

/-- The kind of a value can be read off its text, whatever stands behind it; code is written as it is,
so its text can begin with anything. -/
theorem headingOf_display (hcode : a.code? = none) (rest : List Char) :
    headingOf (a.display.toList ++ rest) = a.heading := by
  cases a with
  | int32 n => exact headingOf_numeric (numeric_display rfl) rest
  | int64 n => exact headingOf_numeric (numeric_display rfl) rest
  | double x => exact headingOf_numeric (numeric_display rfl) rest
  | decimal d => exact headingOf_numeric (numeric_display rfl) rest
  | code s => cases hcode
  | codeWithScope s scope => cases hcode
  | boolean b => cases b <;> rfl
  | document fields =>
    cases fields with
    | nil => rfl
    | cons field rest => simp only [display, String.toList_append]; rfl
  | _ => simp only [display, String.toList_append]; rfl

theorem heading_eq {r s : List Char} (ha : a.code? = none) (hb : b.code? = none)
    (h : a.display.toList ++ r = b.display.toList ++ s) : a.heading = b.heading := by
  rw [← headingOf_display ha r, h, headingOf_display hb s]

/-! ### Scalars by their texts -/

theorem isSome_hexDigit?_of_mem {n : Nat} : ∀ c ∈ Nat.toDigits 16 n, (hexDigit? c).isSome = true := by
  induction n using Nat.strongRecOn with
  | ind n ih =>
    rw [Nat.toDigits_eq_if (by decide)]
    split
    · next h => simp [hexDigit?_digitChar h]
    · next h =>
      rw [List.forall_mem_append]
      exact ⟨ih (n / 16) (by omega), by simp [hexDigit?_digitChar (Nat.mod_lt n (by decide : 0 < 16))]⟩

theorem notMem_toDigits_sixteen {c : Char} (hc : hexDigit? c = none) (n : Nat) :
    c ∉ Nat.toDigits 16 n := by
  intro hmem
  have := isSome_hexDigit?_of_mem c hmem
  rw [hc] at this
  cases this

theorem toDigits_sixteen_injective {m n : Nat} (h : Nat.toDigits 16 m = Nat.toDigits 16 n) : m = n := by
  have hvalue := congrArg hexValue? h
  rw [hexValue?_toDigits, hexValue?_toDigits] at hvalue
  exact Option.some.inj hvalue

/-- Two values whose texts are of one kind. -/
inductive SameKind : Value → Value → Prop
  | refl (a : Value) : SameKind a a
  | string (s t : String) : SameKind (.string s) (.string t)
  | symbol (s t : String) : SameKind (.symbol s) (.symbol t)
  | document (fields others : List (String × Value)) : SameKind (.document fields) (.document others)
  | array (items others : List Value) : SameKind (.array items) (.array others)
  | objectId (id other : ObjectId) : SameKind (.objectId id) (.objectId other)
  | date (t u : Instant) : SameKind (.date t) (.date u)
  | regex (p o q n : String) : SameKind (.regex p o) (.regex q n)
  | timestamp (t i u j : UInt32) : SameKind (.timestamp t i) (.timestamp u j)
  | binary (k : UInt8) (bytes : List UInt8) (l : UInt8) (others : List UInt8) :
    SameKind (.binary k bytes) (.binary l others)
  | dbPointer (c : String) (i : ObjectId) (d : String) (j : ObjectId) :
    SameKind (.dbPointer c i) (.dbPointer d j)
  | keys {a b : Value} (ha : a = .minKey ∨ a = .maxKey) (hb : b = .minKey ∨ b = .maxKey) : SameKind a b
  | number {a b : Value} (ha : a.bracket = 2) (hb : b.bracket = 2) : SameKind a b
  | code {a b : Value} {s t : String} (ha : a.code? = some s) (hb : b.code? = some t) : SameKind a b

theorem sameKind_of_heading (h : a.heading = b.heading) : SameKind a b := by
  rcases a with _ | _ | _ | _ | (_ | _) | _ | _ | _ | _ | _ | _ | _ | _ | _ | _ | _ | _ | _ | _ | _ | _ <;>
  rcases b with _ | _ | _ | _ | (_ | _) | _ | _ | _ | _ | _ | _ | _ | _ | _ | _ | _ | _ | _ | _ | _ | _ <;>
  first
  | (exfalso; revert h; simp [heading]; done)
  | exact .refl _
  | exact .number rfl rfl
  | exact .code rfl rfl
  | exact .keys (.inl rfl) (.inr rfl)
  | exact .keys (.inr rfl) (.inl rfl)
  | constructor

theorem isScalar_of_number (h : a.bracket = 2) : a.IsScalar := by
  cases a <;> first | trivial | cases h

theorem SameKind.isScalar_iff (h : SameKind a b) : a.IsScalar ↔ b.IsScalar := by
  cases h with
  | keys ha hb => rcases ha with rfl | rfl <;> rcases hb with rfl | rfl <;> exact Iff.rfl
  | number ha hb => exact iff_of_true (isScalar_of_number ha) (isScalar_of_number hb)
  | code ha hb => exact iff_of_true (isScalar_of_code? ha) (isScalar_of_code? hb)
  | _ => exact Iff.rfl

theorem toList_separator : ", ".toList = [',', ' '] := rfl

theorem timestamp_injective {time increment other count : UInt32}
    (h : (timestamp time increment).display = (timestamp other count).display) :
    time = other ∧ increment = count := by
  have hcomma : ∀ n : Nat, ',' ∉ (toString n).toList := fun n => by
    rw [Nat.toString_eq_repr, Nat.toList_repr]
    exact notMem_of_isDigit isDigit_of_mem_toDigits (by decide)
  have hlist := congrArg String.toList h
  simp only [display, String.toList_append, List.append_assoc, toList_separator, List.cons_append,
    List.nil_append] at hlist
  obtain ⟨htime, hback⟩ := cut_unique (hcomma _) (hcomma _) (List.append_cancel_left hlist)
  have hincrement := List.append_cancel_right (List.cons.inj hback).2
  constructor
  · exact UInt32.toNat_inj.1 (repr_nat_injective (String.toList_inj.1 htime))
  · exact UInt32.toNat_inj.1 (repr_nat_injective (String.toList_inj.1 hincrement))

theorem binary_injective {subtype other : UInt8} {bytes others : List UInt8}
    (h : (binary subtype bytes).display = (binary other others).display) :
    subtype = other ∧ bytes = others := by
  have hcomma : ∀ n, ',' ∉ Nat.toDigits 16 n := notMem_toDigits_sixteen (by decide)
  have hlist := congrArg String.toList h
  simp only [display, String.toList_append, String.toList_ofList, List.append_assoc, toList_separator,
    List.cons_append, List.nil_append] at hlist
  obtain ⟨hsubtype, hback⟩ := cut_unique (hcomma _) (hcomma _) (List.append_cancel_left hlist)
  have hbytes := List.append_cancel_right (List.cons.inj hback).2
  refine ⟨UInt8.toNat_inj.1 (toDigits_sixteen_injective hsubtype), ?_⟩
  have hread := congrArg bytesOfBase64? hbytes
  rw [bytesOfBase64?_base64OfBytes, bytesOfBase64?_base64OfBytes] at hread
  exact Option.some.inj hread

theorem notMem_idText {c : Char} (hc : hexDigit? c = none) (id : ObjectId) : c ∉ id.text.toList := by
  rw [ObjectId.text, String.toList_ofList, hexPadded, List.mem_append, not_or]
  refine ⟨fun hmem => ?_, notMem_toDigits_sixteen hc _⟩
  rw [List.eq_of_mem_replicate hmem] at hc
  cases hc

theorem dbPointer_injective {collection other : String} {id target : ObjectId}
    (h : (dbPointer collection id).display = (dbPointer other target).display) :
    collection = other ∧ id = target := by
  have hspace : ∀ id : ObjectId, ' ' ∉ id.text.toList.reverse := fun id =>
    List.mem_reverse.not.2 (notMem_idText (by decide) id)
  -- the name of a collection can hold anything, so the text is cut from its end
  have hlist := congrArg (List.reverse ∘ String.toList) h
  simp only [Function.comp_apply, display, String.toList_append, List.reverse_append, toList_separator,
    List.append_assoc] at hlist
  obtain ⟨hid, hfront⟩ := cut_unique (hspace id) (hspace target) (List.cons.inj hlist).2
  have hcollection : collection.toList.reverse = other.toList.reverse :=
    List.append_cancel_right (List.cons.inj hfront).2
  exact ⟨String.toList_inj.1 (List.reverse_injective hcollection),
    ObjectId.text_injective (String.toList_inj.1 (List.reverse_injective hid))⟩

/-- Scalars that read the same are the same, unless they are code, numbers or regular expressions. -/
theorem SameKind.eq_or_numbers (h : SameKind a b) (hscalar : a.IsScalar) (hcode : a.code? = none)
    (hregex : ∀ pattern options, a ≠ .regex pattern options) (hdisplay : a.display = b.display) :
    a = b ∨ a.bracket = 2 ∧ b.bracket = 2 := by
  have hquoted : ∀ {front back s t : String}, front ++ s ++ back = front ++ t ++ back → s = t := by
    intro front back s t heq
    rwa [String.append_left_inj, String.append_right_inj] at heq
  cases h with
  | refl a => exact .inl rfl
  | keys ha hb =>
    rcases ha with rfl | rfl <;> rcases hb with rfl | rfl
    · exact .inl rfl
    · exact absurd hdisplay (by decide)
    · exact absurd hdisplay (by decide)
    · exact .inl rfl
  | number ha hb => exact .inr ⟨ha, hb⟩
  | string s t => exact .inl (congrArg _ (hquoted hdisplay))
  | symbol s t => exact .inl (congrArg _ (hquoted hdisplay))
  | code ha hb => simp [hcode] at ha
  | document fields others => exact absurd hscalar id
  | array items others => exact absurd hscalar id
  | objectId id other => exact .inl (congrArg _ (ObjectId.text_injective (hquoted hdisplay)))
  | date t u => exact .inl (congrArg _ (Instant.display_injective (hquoted hdisplay)))
  | regex p o q n => exact absurd rfl (hregex p o)
  | timestamp t i u j =>
    obtain ⟨rfl, rfl⟩ := timestamp_injective hdisplay
    exact .inl rfl
  | binary k bytes l others =>
    obtain ⟨rfl, rfl⟩ := binary_injective hdisplay
    exact .inl rfl
  | dbPointer c i d j =>
    obtain ⟨rfl, rfl⟩ := dbPointer_injective hdisplay
    exact .inl rfl

end Value

end DocQuery
