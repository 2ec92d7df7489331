import DocQuery.Json.Form
import DocQuery.Json.Reader
import DocQuery.Json.Writer
import Mathlib.Data.List.TakeWhile

/-!
# Reading what was written

`Json.compact` writes a value whose form `Json.readForm` finds again (`readForm_compact`), if all
its numbers are whole ones of 64 bits. The readers are followed along the text of each value with
something behind it. A string or a bracket shows where it ends; behind a number stands whatever may
stand behind a value (`Follows`).
-/

namespace DocQuery.Json

/-! ### Strings -/

/-- The sign that is read from the text of a character: one without a letter of its own is named
by its number. -/
def signOf (c : Char) : Sign :=
  if c.toNat < 32 ∧ c ∉ ['\n', '\r', '\t', '\x08', '\x0c'] then .unit c.toNat else .char c

theorem readHex4_hex4 {n : Nat} (h : n < 32) (rest : List Char) :
    readHex4 (hex4 n ++ rest) = some (n, rest) := by
  have hall : ∀ n : Fin 32, ∃ a b c d, hex4 n.val = [a, b, c, d] ∧
      readHex4 [a, b, c, d] = some (n.val, []) := by
    intro n
    refine ⟨'0', '0', (hex4 n.val).getD 2 '0', (hex4 n.val).getD 3 '0', ?_⟩
    revert n
    decide
  obtain ⟨a, b, c, d, hdigits, hread⟩ := hall ⟨n, h⟩
  simp only [readHex4, Option.bind_eq_bind, Option.bind_eq_some_iff] at hread
  obtain ⟨a', ha, b', hb, c', hc, d', hd, hn⟩ := hread
  simp_all [readHex4]

theorem readSigns_escapeChar (done : List Sign) (fuel : Nat) (c : Char) (rest : List Char) :
    readSigns done (fuel + 1) (escapeChar c ++ rest) = readSigns (signOf c :: done) fuel rest := by
  unfold escapeChar
  -- the characters that are escaped by a letter
  iterate 7
    split
    · next h => subst h; rfl
  split
  · next h =>
    have hsign : signOf c = .unit c.toNat := by simp [signOf, *]
    simp [readSigns, readEscape, readHex4_hex4 h, hsign]
  · next h =>
    have hsign : signOf c = .char c := by simp [signOf, h]
    simp [readSigns, h, hsign]

theorem readSigns_escaped (cs rest : List Char) (done : List Sign) (fuel : Nat)
    (h : cs.length < fuel) : readSigns done fuel (cs.flatMap escapeChar ++ '"' :: rest) =
      some (done.reverse ++ cs.map signOf, rest) := by
  induction cs generalizing done fuel with
  | nil =>
    obtain ⟨fuel, rfl⟩ := Nat.exists_eq_add_of_lt h
    simp [readSigns]
  | cons c cs ih =>
    obtain ⟨fuel, rfl⟩ : ∃ n, fuel = n + 1 := ⟨fuel - 1, by omega⟩
    rw [List.flatMap_cons, List.append_assoc, readSigns_escapeChar, ih _ _ (by simpa using h)]
    simp

theorem decode_unit_cons {n : Nat} (h : n < 0xD800) (signs : List Sign) :
    decode (.unit n :: signs) = (decode signs).map (Char.ofNat n :: ·) := by
  have hhigh : isHighUnit n = false := by simp [isHighUnit]; omega
  have hlow : isLowUnit n = false := by simp [isLowUnit]; omega
  cases signs with
  | nil => simp [decode, hhigh, hlow]
  | cons sign signs => cases sign <;> simp [decode, hhigh, hlow]

theorem decode_map_signOf (cs : List Char) : decode (cs.map signOf) = some cs := by
  induction cs with
  | nil => rfl
  | cons c cs ih =>
    rw [List.map_cons, signOf]
    split
    · next h => simp [decode_unit_cons (show c.toNat < 0xD800 by omega), ih]
    · simp [decode, ih]

theorem length_le_flatMap_escapeChar (cs : List Char) :
    cs.length ≤ (cs.flatMap escapeChar).length := by
  induction cs with
  | nil => simp
  | cons c cs ih =>
    have hone : 1 ≤ (escapeChar c).length := by
      unfold escapeChar
      split_ifs <;> simp
    simp only [List.flatMap_cons, List.length_append, List.length_cons]
    omega

theorem readString_escaped (s : String) (rest : List Char) :
    readString (s.toList.flatMap escapeChar ++ '"' :: rest) = some (some s, rest) := by
  have hfuel := length_le_flatMap_escapeChar s.toList
  rw [readString, readSigns_escaped _ _ _ _ (by simp only [List.length_append]; omega)]
  simp [decode_map_signOf]

/-! ### Numbers -/

/-- What may stand behind a value: nothing, a comma or a closing bracket. -/
def Follows : List Char → Prop
  | [] => True
  | c :: _ => c ∈ [',', ']', '\x7d']

theorem takeDigits_append {digits rest : List Char} (hdigits : ∀ c ∈ digits, c.isDigit)
    (hrest : Follows rest) : takeDigits (digits ++ rest) = (digits, rest) := by
  have hstop : ∀ c ∈ rest.head?, c.isDigit = false := by
    cases rest with
    | nil => simp
    | cons c rest =>
      simp only [Follows, List.mem_cons, List.not_mem_nil, or_false] at hrest
      obtain rfl | rfl | rfl := hrest <;> simp
  have htake : rest.takeWhile Char.isDigit = [] := by
    cases rest <;> simp_all
  have hdrop : rest.dropWhile Char.isDigit = rest := by
    cases rest <;> simp_all
  rw [takeDigits, List.takeWhile_append_of_pos hdigits, List.dropWhile_append_of_pos hdigits,
    htake, hdrop, List.append_nil]

theorem isDigit_of_mem_toDigits {n : Nat} : ∀ c ∈ Nat.toDigits 10 n, c.isDigit :=
  fun _ => Nat.isDigit_of_mem_toDigits (by decide) (by decide)

/-- The digits of a number begin with a zero only if it is zero. -/
theorem toDigits_eq_zero_cons {n : Nat} {rest : List Char} (h : Nat.toDigits 10 n = '0' :: rest) :
    rest = [] := by
  induction n using Nat.strong_induction_on generalizing rest with
  | _ n ih =>
    rw [Nat.toDigits_eq_if (by decide)] at h
    split at h
    · simpa using (List.cons.inj h).2.symm
    · next hn =>
      obtain ⟨c, front, hfront⟩ :=
        List.exists_cons_of_ne_nil (Nat.toDigits_ne_nil (b := 10) (n := n / 10))
      rw [hfront, List.cons_append] at h
      obtain ⟨rfl, -⟩ := List.cons.inj h
      have hnil := ih (n / 10) (by omega) hfront
      have hvalue := congrArg (fun digits => Nat.ofDigitChars 10 digits 0) hfront
      rw [Nat.ofDigitChars_toDigits (by decide) (by decide), hnil] at hvalue
      simp [Nat.ofDigitChars] at hvalue
      omega

theorem readWhole_toDigits (n : Nat) {rest : List Char} (hrest : Follows rest) :
    readWhole (Nat.toDigits 10 n ++ rest) = some (Nat.toDigits 10 n, rest) := by
  rw [readWhole, takeDigits_append isDigit_of_mem_toDigits hrest]
  split
  · next h => exact absurd (Prod.mk.inj h).1 Nat.toDigits_ne_nil
  · next h => exact absurd (toDigits_eq_zero_cons (Prod.mk.inj h).1) (List.cons_ne_nil _ _)
  · rfl

theorem le_ofDigitChars (digits : List Char) (n : Nat) : n ≤ Nat.ofDigitChars 10 digits n := by
  induction digits generalizing n with
  | nil => exact Nat.le_refl n
  | cons c rest ih =>
    rw [Nat.ofDigitChars_cons]
    have := ih (10 * n + (c.toNat - '0'.toNat))
    omega

theorem absorb_of_le {digits : List Char} {n : Nat}
    (h : Nat.ofDigitChars 10 digits n ≤ greatestWord) :
    absorb n digits = (Nat.ofDigitChars 10 digits n, []) := by
  induction digits generalizing n with
  | nil => rfl
  | cons c rest ih =>
    rw [Nat.ofDigitChars_cons] at h ⊢
    have hnext := Nat.le_trans (le_ofDigitChars rest _) h
    exact (if_neg (Nat.not_lt.mpr hnext)).trans (ih h)

theorem absorb_toDigits {n : Nat} (h : n ≤ greatestWord) :
    absorb 0 (Nat.toDigits 10 n) = (n, []) := by
  have hvalue : Nat.ofDigitChars 10 (Nat.toDigits 10 n) 0 = n :=
    Nat.ofDigitChars_toDigits (by decide) (by decide)
  rw [absorb_of_le (hvalue.symm ▸ h), hvalue]

theorem readFraction_of_follows {rest : List Char} (h : Follows rest) :
    readFraction rest = some (none, rest) := by
  cases rest with
  | nil => rfl
  | cons c rest =>
    simp only [Follows, List.mem_cons, List.not_mem_nil, or_false] at h
    obtain rfl | rfl | rfl := h <;> rfl

theorem readExponent_of_follows {rest : List Char} (h : Follows rest) :
    readExponent rest = some (none, rest) := by
  cases rest with
  | nil => rfl
  | cons c rest =>
    simp only [Follows, List.mem_cons, List.not_mem_nil, or_false] at h
    obtain rfl | rfl | rfl := h <;> rfl

/-- The whole numbers that are read as such. -/
def IsWord (n : Int) : Prop := -(twoTo 63 : Int) ≤ n ∧ n ≤ greatestWord

theorem meaning_toDigits {n : Nat} (negative : Bool) (h : n ≤ greatestWord) :
    Written.meaning ⟨negative, Nat.toDigits 10 n, none, none⟩ =
      if !negative then some (.whole n)
      else if 0 < n && n ≤ twoTo 63 then some (.whole (-(n : Int)))
      else some (.real (Double.ofNat n).negate) := by
  cases negative <;> simp [Written.meaning, absorb_toDigits h]

theorem readNumber_wholeText {n : Int} (hn : IsWord n) {rest : List Char} (hrest : Follows rest) :
    readNumber (wholeText n ++ rest) = some (some (.whole n), rest) := by
  obtain ⟨hlow, hhigh⟩ := hn
  have hsize : greatestWord = 2 ^ 64 - 1 ∧ twoTo 63 = 2 ^ 63 := ⟨rfl, rfl⟩
  have hfits : n.natAbs ≤ greatestWord := by omega
  have hread := readWhole_toDigits n.natAbs hrest
  by_cases hneg : n < 0
  · have hmeaning : Written.meaning ⟨true, Nat.toDigits 10 n.natAbs, none, none⟩ =
        some (.whole n) := by
      have hcond : 0 < n.natAbs ∧ n.natAbs ≤ twoTo 63 := by omega
      have habs : -(n.natAbs : Int) = n := by omega
      rw [meaning_toDigits true hfits, if_neg (by simp), if_pos (by simpa using hcond), habs]
    rw [wholeText, if_pos hneg, List.cons_append]
    simp [readNumber, hread, readFraction_of_follows hrest, readExponent_of_follows hrest, hmeaning]
  · have hmeaning : Written.meaning ⟨false, Nat.toDigits 10 n.natAbs, none, none⟩ =
        some (.whole n) := by
      have habs : (n.natAbs : Int) = n := by omega
      rw [meaning_toDigits false hfits, if_pos (by simp), habs]
    obtain ⟨c, digits, hdigits⟩ :=
      List.exists_cons_of_ne_nil (Nat.toDigits_ne_nil (b := 10) (n := n.natAbs))
    have hc : c ≠ '-' := by
      rintro rfl
      exact absurd (isDigit_of_mem_toDigits '-' (hdigits ▸ List.mem_cons_self)) (by decide)
    rw [wholeText, if_neg hneg]
    rw [hdigits, List.cons_append] at hread ⊢
    rw [hdigits] at hmeaning
    unfold readNumber
    split
    next negative cs hsign =>
    split at hsign
    · next h => exact absurd (List.cons.inj h).1 hc
    · obtain ⟨rfl, rfl⟩ := Prod.mk.inj hsign
      simp [hread, readFraction_of_follows hrest, readExponent_of_follows hrest, hmeaning]

/-! ### Values -/

mutual

/-- All numbers in a value are whole ones of 64 bits. -/
def WordsOnly : Json → Prop
  | .whole n => IsWord n
  | .real _ => False
  | .array items => WordsOnlyItems items
  | .object members => WordsOnlyMembers members
  | _ => True

def WordsOnlyItems : List Json → Prop
  | [] => True
  | item :: rest => item.WordsOnly ∧ WordsOnlyItems rest

def WordsOnlyMembers : List (String × Json) → Prop
  | [] => True
  | (_, value) :: rest => value.WordsOnly ∧ WordsOnlyMembers rest

end

theorem wordsOnlyItems_iff {items : List Json} :
    WordsOnlyItems items ↔ ∀ item ∈ items, item.WordsOnly := by
  induction items with
  | nil => simp [WordsOnlyItems]
  | cons item items ih => simp [WordsOnlyItems, ih]

theorem wordsOnlyMembers_iff {members : List (String × Json)} :
    WordsOnlyMembers members ↔ ∀ member ∈ members, member.2.WordsOnly := by
  induction members with
  | nil => simp [WordsOnlyMembers]
  | cons member members ih => simp [WordsOnlyMembers, ih]

theorem exists_wholeText_cons (n : Int) :
    ∃ c cs, wholeText n = c :: cs ∧ (c = '-' ∨ c.isDigit) := by
  rw [wholeText]
  split
  · exact ⟨'-', _, rfl, .inl rfl⟩
  · obtain ⟨c, digits, hdigits⟩ :=
      List.exists_cons_of_ne_nil (Nat.toDigits_ne_nil (b := 10) (n := n.natAbs))
    exact ⟨c, digits, hdigits, .inr (isDigit_of_mem_toDigits c (hdigits ▸ List.mem_cons_self))⟩

/-- A number begins with a character that nothing else begins with. -/
theorem ne_of_numberHead {c : Char} (hc : c = '-' ∨ c.isDigit) :
    ∀ d ∈ [' ', '\n', '\t', '\r', ']', 'n', 't', 'f', '"', '[', '\x7b'], c ≠ d := by
  have hnone : ([' ', '\n', '\t', '\r', ']', 'n', 't', 'f', '"', '[', '\x7b'].all fun d =>
      !(d == '-' || d.isDigit)) = true := by decide
  rintro d hd rfl
  have hother := List.all_eq_true.1 hnone c hd
  simp_all

theorem isBlank_of_numberHead {c : Char} (hc : c = '-' ∨ c.isDigit) : isBlank c = false := by
  simp [isBlank, ne_of_numberHead hc]

/-- The text of a value begins with a character that is neither blank nor a closing bracket. -/
theorem exists_compactChars_cons {j : Json} (hj : j.WordsOnly) :
    ∃ c cs, j.compactChars = c :: cs ∧ isBlank c = false ∧ c ≠ ']' := by
  cases j with
  | null => exact ⟨'n', _, rfl, rfl, by decide⟩
  | bool b => cases b <;> exact ⟨_, _, rfl, rfl, by decide⟩
  | whole n =>
    obtain ⟨c, cs, hcs, hc⟩ := exists_wholeText_cons n
    exact ⟨c, cs, hcs, isBlank_of_numberHead hc, ne_of_numberHead hc _ (by simp)⟩
  | real x => exact hj.elim
  | string s => exact ⟨'"', _, rfl, rfl, by decide⟩
  | array items => exact ⟨'[', _, rfl, rfl, by decide⟩
  | object members => exact ⟨'\x7b', _, rfl, rfl, by decide⟩

theorem skipBlanks_cons {c : Char} (h : isBlank c = false) (cs : List Char) :
    skipBlanks (c :: cs) = c :: cs := by
  simp [skipBlanks, h]

theorem follows_compactItems (items : List Json) (rest : List Char) :
    Follows (compactItems false items ++ ']' :: rest) := by
  cases items <;> simp [compactItems, Follows]

theorem follows_compactMembers (members : List (String × Json)) (rest : List Char) :
    Follows (compactMembers false members ++ '\x7d' :: rest) := by
  cases members <;> simp [compactMembers, Follows]

theorem readValue_number {c : Char} (hc : c = '-' ∨ c.isDigit) (fuel : Nat) (cs : List Char) :
    readValue (fuel + 1) (c :: cs) =
      (readNumber (c :: cs)).map fun (value, rest) => (.number value, rest) := by
  rw [readValue, skipBlanks_cons (isBlank_of_numberHead hc)]
  split
  case h_7 => rfl
  all_goals next h => exact absurd (List.cons.inj h).1 (ne_of_numberHead hc _ (by simp))

theorem readValue_array {fuel : Nat} {c : Char} {cs : List Char} (hblank : isBlank c = false)
    (hc : c ≠ ']') : readValue (fuel + 1) ('[' :: c :: cs) =
      (readItems fuel (c :: cs)).map fun (items, rest) => (.array items, rest) := by
  simp only [readValue, skipBlanks_cons (show isBlank '[' = false from rfl), skipBlanks_cons hblank]
  split
  · next h => exact absurd (List.cons.inj h).1 hc
  · rfl

theorem readValue_object {fuel : Nat} {cs : List Char} :
    readValue (fuel + 1) ('\x7b' :: '"' :: cs) =
      (readMembers fuel ('"' :: cs)).map fun (members, rest) => (.object members, rest) := rfl

theorem compactItems_first (item : Json) (rest : List Json) :
    compactItems true (item :: rest) = item.compactChars ++ compactItems false rest := rfl

theorem compactItems_next (item : Json) (rest : List Json) :
    compactItems false (item :: rest) = ',' :: compactItems true (item :: rest) := rfl

/-- A member with what stands behind it. -/
theorem compactMembers_first (name : String) (value : Json) (rest : List (String × Json))
    (cs : List Char) : compactMembers true ((name, value) :: rest) ++ cs =
      '"' :: (name.toList.flatMap escapeChar ++
        '"' :: ':' :: (value.compactChars ++ (compactMembers false rest ++ cs))) := by
  simp [compactMembers, stringText]

theorem compactMembers_next (member : String × Json) (rest : List (String × Json)) :
    compactMembers false (member :: rest) = ',' :: compactMembers true (member :: rest) := by
  simp [compactMembers]

mutual

theorem readValue_compactChars {j : Json} (hj : j.WordsOnly) {fuel : Nat} {rest : List Char}
    (hfuel : j.compactChars.length ≤ fuel) (hrest : Follows rest) :
    readValue fuel (j.compactChars ++ rest) = some (j.form, rest) := by
  obtain ⟨c, cs, hhead, -, -⟩ := exists_compactChars_cons hj
  obtain ⟨fuel, rfl⟩ : ∃ n, fuel = n + 1 := by
    rw [hhead, List.length_cons] at hfuel
    exact ⟨fuel - 1, by omega⟩
  cases j with
  | null => rfl
  | bool b => cases b <;> rfl
  | whole n =>
    obtain ⟨c, cs, hcs, hc⟩ := exists_wholeText_cons n
    have hread := readNumber_wholeText hj hrest
    rw [hcs, List.cons_append] at hread
    rw [compactChars, hcs, List.cons_append, readValue_number hc, hread]
    rfl
  | real x => exact hj.elim
  | string s =>
    have hread := readString_escaped s rest
    simp [compactChars, stringText, readValue, skipBlanks_cons, isBlank, hread, form]
  | array items =>
    cases items with
    | nil => rfl
    | cons item items =>
      obtain ⟨c, cs, hhead, hblank, hc⟩ := exists_compactChars_cons hj.1
      have hread : readItems fuel (compactItems true (item :: items) ++ ']' :: rest) =
          some (itemForms (item :: items), rest) :=
        readItems_compactItems (by simp) hj (by simpa [compactChars] using hfuel)
      have htext : compactItems true (item :: items) ++ ']' :: rest =
          c :: (cs ++ (compactItems false items ++ ']' :: rest)) := by
        simp [compactItems_first, hhead]
      rw [compactChars, List.cons_append, List.cons_append, List.append_assoc,
        List.singleton_append, htext, readValue_array hblank hc, ← htext, hread]
      rfl
  | object members =>
    cases members with
    | nil => rfl
    | cons member members =>
      have hread : readMembers fuel (compactMembers true (member :: members) ++ '\x7d' :: rest) =
          some (memberForms (member :: members), rest) :=
        readMembers_compactMembers (by simp) hj (by simpa [compactChars] using hfuel)
      rw [compactChars, List.cons_append, List.cons_append, List.append_assoc,
        List.singleton_append, compactMembers_first, readValue_object, ← compactMembers_first, hread]
      rfl

theorem readItems_compactItems {items : List Json} (hne : items ≠ []) (hitems : WordsOnlyItems items)
    {fuel : Nat} {rest : List Char} (hfuel : (compactItems true items).length + 1 ≤ fuel) :
    readItems fuel (compactItems true items ++ ']' :: rest) = some (itemForms items, rest) := by
  obtain ⟨fuel, rfl⟩ : ∃ n, fuel = n + 1 := ⟨fuel - 1, by omega⟩
  cases items with
  | nil => exact absurd rfl hne
  | cons item items =>
    obtain ⟨hitem, hitems⟩ := hitems
    rw [compactItems_first, List.length_append] at hfuel
    have hread : readValue fuel (item.compactChars ++ (compactItems false items ++ ']' :: rest)) =
        some (item.form, compactItems false items ++ ']' :: rest) :=
      readValue_compactChars hitem (by omega) (follows_compactItems items rest)
    rw [compactItems_first, List.append_assoc, readItems, hread]
    cases items with
    | nil => rfl
    | cons next items =>
      rw [compactItems_next, List.length_cons] at hfuel
      have hnext : readItems fuel (compactItems true (next :: items) ++ ']' :: rest) =
          some (itemForms (next :: items), rest) :=
        readItems_compactItems (by simp) hitems (by omega)
      simp only [compactItems_next, List.cons_append,
        skipBlanks_cons (show isBlank ',' = false from rfl), hnext]
      rfl

theorem readMembers_compactMembers {members : List (String × Json)} (hne : members ≠ [])
    (hmembers : WordsOnlyMembers members) {fuel : Nat} {rest : List Char}
    (hfuel : (compactMembers true members).length + 1 ≤ fuel) :
    readMembers fuel (compactMembers true members ++ '\x7d' :: rest) =
      some (memberForms members, rest) := by
  obtain ⟨fuel, rfl⟩ : ∃ n, fuel = n + 1 := ⟨fuel - 1, by omega⟩
  cases members with
  | nil => exact absurd rfl hne
  | cons member members =>
    obtain ⟨name, value⟩ := member
    obtain ⟨hvalue, hmembers⟩ := hmembers
    have hlength := congrArg List.length (compactMembers_first name value members [])
    simp only [List.append_nil, List.length_cons, List.length_append] at hlength
    have hread : readValue fuel
        (value.compactChars ++ (compactMembers false members ++ '\x7d' :: rest)) =
          some (value.form, compactMembers false members ++ '\x7d' :: rest) :=
      readValue_compactChars hvalue (by omega) (follows_compactMembers members rest)
    rw [compactMembers_first]
    simp only [readMembers, skipBlanks_cons (show isBlank '"' = false from rfl),
      readString_escaped, skipBlanks_cons (show isBlank ':' = false from rfl), hread]
    cases members with
    | nil => rfl
    | cons next members =>
      rw [compactMembers_next, List.length_cons] at hlength
      have hnext : readMembers fuel (compactMembers true (next :: members) ++ '\x7d' :: rest) =
          some (memberForms (next :: members), rest) :=
        readMembers_compactMembers (by simp) hmembers (by omega)
      simp only [compactMembers_next, List.cons_append,
        skipBlanks_cons (show isBlank ',' = false from rfl), hnext]
      rfl

end

/-- What is written without blanks is read as the form of the value. -/
theorem readForm_compact {j : Json} (hj : j.WordsOnly) : readForm j.compact = some j.form := by
  have hread : readValue (2 * j.compactChars.length + 2) (j.compactChars ++ []) =
      some (j.form, []) := readValue_compactChars hj (by omega) trivial
  rw [List.append_nil] at hread
  simp [readForm, compact, hread, skipBlanks]

end DocQuery.Json
