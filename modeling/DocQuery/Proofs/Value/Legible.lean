import DocQuery.Proofs.Value.Displayed
import Mathlib.Data.List.Forall2

/-!
# Texts of arrays and documents

What a message writes inside of an array or a document is not escaped.  If the parts of two values read
the same, in the same places, so do the values (`Value.Alike.display_eq`).  The text can be cut into its
parts again if nothing in it has a quote of its own (`Value.Legible`): every value can be told from what
stands behind it (`Value.Legible.cut`), and legible values that read the same are built alike
(`Value.Legible.alike`).
-/

namespace DocQuery

open Text

namespace Value

variable {a b : Value}

/-! ### Scalars with something behind them -/

/-- A scalar that is written without quotes inside of it, or without a comma where it is not quoted; code
and regular expressions are written as they are. -/
def Unquoted : Value → Prop
  | .string s => '"' ∉ s.toList
  | .symbol s => '"' ∉ s.toList
  | .code _ => False
  | .codeWithScope _ _ => False
  | .regex _ _ => False
  | .dbPointer collection _ => ',' ∉ collection.toList
  | _ => True

theorem Unquoted.code?_eq_none (h : a.Unquoted) : a.code? = none := by
  cases a <;> first | rfl | exact absurd h id

/-- A value whose text can be cut into the texts of its parts. -/
inductive Legible : Value → Prop
  | scalar {a : Value} (hscalar : a.IsScalar) (h : a.Unquoted) : Legible a
  | array {items : List Value} (h : ∀ item ∈ items, Legible item) : Legible (.array items)
  | document {fields : Document} (hkeys : ∀ field ∈ fields, '"' ∉ field.1.toList)
    (h : ∀ field ∈ fields, Legible field.2) : Legible (.document fields)

/-- What stands behind a value inside of an array or a document. -/
def Ends (rest : List Char) : Prop := ∀ c, rest.head? = some c → c ∈ [',', ' ', ']']

variable {r s : List Char}

/-- A text without any of these characters. -/
def Bare (text : List Char) : Prop := ∀ c ∈ text, c ∉ [',', ' ', ']']

theorem bare_cut {x y : List Char} (hx : Bare x) (hy : Bare y)
    (hr : Ends r) (hs : Ends s) (h : x ++ r = y ++ s) : x = y ∧ r = s := by
  induction x generalizing y with
  | nil =>
    cases y with
    | nil => exact ⟨rfl, h⟩
    | cons d y =>
      have hd : r = d :: (y ++ s) := h
      exact absurd (hr d (by rw [hd]; rfl)) (hy d List.mem_cons_self)
  | cons c x ih =>
    cases y with
    | nil =>
      have hc : s = c :: (x ++ r) := h.symm
      exact absurd (hs c (by rw [hc]; rfl)) (hx c List.mem_cons_self)
    | cons d y =>
      obtain ⟨rfl, htail⟩ := List.cons.inj h
      obtain ⟨rfl, hrest⟩ := ih (fun e he => hx e (List.mem_cons_of_mem _ he))
        (fun e he => hy e (List.mem_cons_of_mem _ he)) htail
      exact ⟨rfl, hrest⟩

theorem bare_of_numeric {x : List Char} (h : Numeric x) : Bare x := by
  intro c hc hmem
  rcases h.chars c hc with hdigit | hword
  · simp only [List.mem_cons, List.not_mem_nil, or_false] at hmem
    rcases hmem with rfl | rfl | rfl <;> exact absurd hdigit (by decide)
  · simp only [List.mem_cons, List.not_mem_nil, or_false] at hmem
    rcases hmem with rfl | rfl | rfl <;> exact absurd hword (by decide)

/-- Texts that end with the first bracket. -/
theorem bracket_cut (ha : ∃ x, a.display.toList = x ++ [')'] ∧ ')' ∉ x)
    (hb : ∃ y, b.display.toList = y ++ [')'] ∧ ')' ∉ y)
    (h : a.display.toList ++ r = b.display.toList ++ s) : a.display = b.display ∧ r = s := by
  obtain ⟨x, hx, hxBracket⟩ := ha
  obtain ⟨y, hy, hyBracket⟩ := hb
  rw [hx, hy, List.append_assoc, List.append_assoc] at h
  obtain ⟨rfl, hrest⟩ := cut_unique hxBracket hyBracket h
  exact ⟨String.toList_inj.1 (hx.trans hy.symm), hrest⟩

theorem bracket_timestamp (time increment : UInt32) :
    ∃ x, (timestamp time increment).display.toList = x ++ [')'] ∧ ')' ∉ x := by
  refine ⟨("Timestamp(" ++ toString time.toNat ++ ", " ++ toString increment.toNat).toList, ?_, ?_⟩
  · rw [display, String.toList_append]
    rfl
  · have hdigits : ∀ n : Nat, ')' ∉ (toString n).toList := fun n => by
      rw [Nat.toString_eq_repr, Nat.toList_repr]
      exact notMem_of_isDigit isDigit_of_mem_toDigits (by decide)
    simp only [String.toList_append, List.mem_append, not_or]
    exact ⟨⟨⟨by decide, hdigits _⟩, by decide⟩, hdigits _⟩

theorem bracket_binary (subtype : UInt8) (bytes : List UInt8) :
    ∃ x, (binary subtype bytes).display.toList = x ++ [')'] ∧ ')' ∉ x := by
  refine ⟨("Binary(0x" ++ String.ofList (Nat.toDigits 16 subtype.toNat) ++ ", " ++
    String.ofList (base64OfBytes bytes)).toList, ?_, ?_⟩
  · rw [display, String.toList_append]
    rfl
  · simp only [String.toList_append, String.toList_ofList, List.mem_append, not_or]
    exact ⟨⟨⟨by decide, notMem_toDigits_sixteen (by decide) _⟩, by decide⟩,
      bracket_notMem_base64OfBytes bytes⟩

/-- Scalars with something behind them. -/
theorem SameKind.cut (h : SameKind a b) (hscalar : a.IsScalar) (ha : a.Unquoted) (hb : b.Unquoted)
    (hr : Ends r) (hs : Ends s) (htext : a.display.toList ++ r = b.display.toList ++ s) :
    a.display = b.display ∧ r = s := by
  cases h with
  | refl a => exact ⟨rfl, List.append_cancel_left htext⟩
  | keys ha hb =>
    have hlength : a.display.toList.length = b.display.toList.length := by
      rcases ha with rfl | rfl <;> rcases hb with rfl | rfl <;> simp [display]
    obtain ⟨hlist, hrest⟩ := List.append_inj htext hlength
    exact ⟨String.toList_inj.1 hlist, hrest⟩
  | number ha hb =>
    obtain ⟨hlist, hrest⟩ :=
      bare_cut (bare_of_numeric (numeric_display ha)) (bare_of_numeric (numeric_display hb)) hr hs
        htext
    exact ⟨String.toList_inj.1 hlist, hrest⟩
  | string x y =>
    simp only [display, String.toList_append, List.append_assoc] at htext
    obtain ⟨hxy, hrest⟩ := cut_unique ha hb (List.append_cancel_left htext)
    rw [String.toList_inj.1 hxy]
    exact ⟨rfl, hrest⟩
  | symbol x y =>
    simp only [display, String.toList_append, List.append_assoc] at htext
    obtain ⟨hxy, hrest⟩ := cut_unique ha hb (List.append_cancel_left htext)
    rw [String.toList_inj.1 hxy]
    exact ⟨rfl, (List.cons.inj hrest).2⟩
  | code hcode hother => simp [ha.code?_eq_none] at hcode
  | document fields others => exact absurd hscalar id
  | array items others => exact absurd hscalar id
  | objectId id other =>
    simp only [display, String.toList_append, List.append_assoc] at htext
    obtain ⟨hid, hrest⟩ := cut_unique (notMem_idText (by decide) id) (notMem_idText (by decide) other)
      (List.append_cancel_left htext)
    rw [display, String.toList_inj.1 hid]
    exact ⟨rfl, (List.cons.inj hrest).2⟩
  | date t u =>
    simp only [display, String.toList_append, List.append_assoc] at htext
    obtain ⟨hdate, hrest⟩ := cut_unique t.quote_notMem_display u.quote_notMem_display
      (List.append_cancel_left htext)
    rw [display, String.toList_inj.1 hdate]
    exact ⟨rfl, (List.cons.inj hrest).2⟩
  | regex p o q n => exact absurd ha id
  | timestamp t i u j => exact bracket_cut (bracket_timestamp t i) (bracket_timestamp u j) htext
  | binary k bytes l others => exact bracket_cut (bracket_binary k bytes) (bracket_binary l others) htext
  | dbPointer c i d j =>
    simp only [display, String.toList_append, List.append_assoc, toList_separator, List.cons_append,
      List.nil_append] at htext
    obtain ⟨hcollection, hback⟩ := cut_unique ha hb (List.append_cancel_left htext)
    obtain ⟨hid, hrest⟩ := cut_unique (notMem_idText (by decide) i) (notMem_idText (by decide) j)
      (List.cons.inj hback).2
    rw [display, display, String.toList_inj.1 hcollection, String.toList_inj.1 hid]
    exact ⟨rfl, hrest⟩

/-! ### Parts with commas between them -/

/-- Texts with a comma in front of each but the first. -/
def separated (first : Bool) : List (List Char) → List Char
  | [] => []
  | part :: rest => (if first then [] else [',', ' ']) ++ (part ++ separated false rest)

/-- The text of a field. -/
def fieldText (field : String × Value) : List Char :=
  '"' :: (field.1.toList ++ '"' :: (':' :: ' ' :: field.2.display.toList))

theorem toList_displayFields (first : Bool) (fields : Document) :
    (displayFields first fields).toList = separated first (fields.map fieldText) := by
  induction fields generalizing first with
  | nil => rfl
  | cons field rest ih =>
    obtain ⟨key, value⟩ := field
    rw [displayFields]
    simp only [String.toList_append, ih, List.map_cons, separated, fieldText]
    cases first <;> simp

theorem toList_displayItems (first : Bool) (items : List Value) :
    (displayItems first items).toList = separated first (items.map fun item => item.display.toList) := by
  induction items generalizing first with
  | nil => rfl
  | cons item rest ih =>
    rw [displayItems]
    simp only [String.toList_append, ih, List.map_cons, separated]
    cases first <;> simp

/-- A text in which what stands behind a part can be told from it. -/
def CutsFrom (part other : List Char) : Prop :=
  ∀ r s, Ends r → Ends s → part ++ r = other ++ s → part = other ∧ r = s

/-- A text that does not begin with a character that ends a value. -/
def Begins (part : List Char) : Prop := ∃ c rest, part = c :: rest ∧ c ∉ [',', ' ', ']']

theorem ends_separated {last : Char} (hlast : last ∈ [',', ' ', ']']) (rest : List (List Char))
    (behind : List Char) : Ends (separated false rest ++ last :: behind) := by
  intro c hc
  cases rest with
  | nil =>
    obtain rfl : last = c := Option.some.inj hc
    exact hlast
  | cons part rest =>
    obtain rfl : ',' = c := Option.some.inj hc
    decide

theorem separated_ne {first : Bool} {part : List Char} {rest : List (List Char)} {last : Char}
    {behind back : List Char} (hlast : last ∈ [' ', ']']) (hpart : Begins part) :
    last :: behind ≠ separated first (part :: rest) ++ back := by
  obtain ⟨c, more, rfl, hc⟩ := hpart
  intro heq
  cases first
  · obtain rfl : last = ',' := (List.cons.inj heq).1
    exact absurd hlast (by decide)
  · obtain rfl : last = c := (List.cons.inj heq).1
    exact hc (List.mem_cons_of_mem _ hlast)

/-- The parts can be cut apart. -/
theorem separated_cut (first : Bool) {parts others : List (List Char)} {last : Char}
    (close : List Char) (hlast : last ∈ [' ', ']']) (hparts : ∀ part ∈ parts, Begins part)
    (hothers : ∀ part ∈ others, Begins part)
    (hcut : ∀ part ∈ parts, ∀ other ∈ others, CutsFrom part other)
    (h : separated first parts ++ last :: (close ++ r) =
      separated first others ++ last :: (close ++ s)) : parts = others ∧ r = s := by
  have hends : last ∈ [',', ' ', ']'] := List.mem_cons_of_mem _ hlast
  induction parts generalizing first others with
  | nil =>
    cases others with
    | nil => exact ⟨rfl, List.append_cancel_left (List.cons.inj h).2⟩
    | cons other others => exact absurd h (separated_ne hlast (hothers other List.mem_cons_self))
  | cons part parts ih =>
    cases others with
    | nil => exact absurd h.symm (separated_ne hlast (hparts part List.mem_cons_self))
    | cons other others =>
      simp only [separated, List.append_assoc] at h
      obtain ⟨rfl, hrest⟩ := hcut part List.mem_cons_self other List.mem_cons_self _ _
        (ends_separated hends parts _) (ends_separated hends others _) (List.append_cancel_left h)
      obtain ⟨rfl, hback⟩ := ih false (fun part hpart => hparts part (List.mem_cons_of_mem _ hpart))
        (fun part hpart => hothers part (List.mem_cons_of_mem _ hpart))
        (fun part hpart other hother =>
          hcut part (List.mem_cons_of_mem _ hpart) other (List.mem_cons_of_mem _ hother)) hrest
      exact ⟨rfl, hback⟩

theorem heading_notMem (a : Value) : a.heading ∉ [',', ' ', ']'] := by
  rcases a with _ | _ | _ | _ | (_ | _) | _ | _ | _ | _ | _ | _ | _ | _ | _ | _ | _ | _ | _ | _ | _ | _ <;>
  simp [heading]

namespace Legible

theorem unquoted (h : Legible a) : a.Unquoted := by
  cases h with
  | scalar hscalar hunquoted => exact hunquoted
  | array hitems => trivial
  | document hkeys hfields => trivial

theorem begins (h : Legible a) : Begins a.display.toList := by
  have hnot := a.heading_notMem
  rw [← headingOf_display h.unquoted.code?_eq_none [], List.append_nil] at hnot
  cases htext : a.display.toList with
  | nil =>
    rw [htext] at hnot
    exact absurd (by decide) hnot
  | cons c rest =>
    refine ⟨c, rest, rfl, fun hmem => hnot ?_⟩
    rw [htext]
    simp only [List.mem_cons, List.not_mem_nil, or_false] at hmem
    rcases hmem with rfl | rfl | rfl <;> simp [headingOf]

theorem sameKind (ha : Legible a) (hb : Legible b)
    (h : a.display.toList ++ r = b.display.toList ++ s) : SameKind a b :=
  sameKind_of_heading (heading_eq ha.unquoted.code?_eq_none hb.unquoted.code?_eq_none h)

theorem sameKind_of_display (ha : Legible a) (hb : Legible b) (h : a.display = b.display) :
    SameKind a b := ha.sameKind hb (r := []) (s := []) (by rw [h])

end Legible

theorem SameKind.array_inv {items : List Value} (h : SameKind (.array items) b) :
    ∃ others, b = .array others := by
  cases h with
  | refl => exact ⟨_, rfl⟩
  | array => exact ⟨_, rfl⟩
  | keys ha => rcases ha with ha | ha <;> cases ha
  | number ha => cases ha
  | code ha => cases ha

theorem SameKind.document_inv {fields : Document} (h : SameKind (.document fields) b) :
    ∃ others, b = .document others := by
  cases h with
  | refl => exact ⟨_, rfl⟩
  | document => exact ⟨_, rfl⟩
  | keys ha => rcases ha with ha | ha <;> cases ha
  | number ha => cases ha
  | code ha => cases ha

theorem SameKind.regex_inv {p o : String} (h : SameKind (.regex p o) b) : ∃ q n, b = .regex q n := by
  cases h with
  | refl => exact ⟨_, _, rfl⟩
  | regex => exact ⟨_, _, rfl⟩
  | keys ha => rcases ha with ha | ha <;> cases ha
  | number ha => cases ha
  | code ha => cases ha

theorem Legible.items {items : List Value} (h : Legible (.array items)) :
    ∀ item ∈ items, Legible item := by
  cases h with
  | scalar hscalar => exact absurd hscalar id
  | array hitems => exact hitems

theorem Legible.fields {fields : Document} (h : Legible (.document fields)) :
    (∀ field ∈ fields, '"' ∉ field.1.toList) ∧ ∀ field ∈ fields, Legible field.2 := by
  cases h with
  | scalar hscalar => exact absurd hscalar id
  | document hkeys hfields => exact ⟨hkeys, hfields⟩

/-- The texts of fields can be cut if those of their values can. -/
theorem fieldText_cut {field other : String × Value} (hkey : '"' ∉ field.1.toList)
    (hother : '"' ∉ other.1.toList) (hvalue : CutsFrom field.2.display.toList other.2.display.toList) :
    CutsFrom (fieldText field) (fieldText other) := by
  intro r s hr hs h
  simp only [fieldText, List.cons_append, List.append_assoc] at h
  obtain ⟨hkeys, hvalues⟩ := cut_unique hkey hother (List.cons.inj h).2
  obtain ⟨hdisplay, hrest⟩ := hvalue r s hr hs (List.cons.inj (List.cons.inj hvalues).2).2
  exact ⟨by rw [fieldText, fieldText, hkeys, hdisplay], hrest⟩

theorem begins_fieldText (field : String × Value) : Begins (fieldText field) := ⟨'"', _, rfl, by decide⟩

theorem toList_display_document (field : String × Value) (rest : Document) :
    (document (field :: rest)).display.toList =
      '\x7b' :: ' ' :: (separated true ((field :: rest).map fieldText) ++ [' ', '\x7d']) := by
  rw [display, String.toList_append, String.toList_append, toList_displayFields]
  rfl

theorem toList_display_array (items : List Value) : (array items).display.toList =
    '[' :: (separated true (items.map fun item => item.display.toList) ++ [']']) := by
  rw [display, String.toList_append, String.toList_append, toList_displayItems]
  rfl

/-! ### Values and their parts -/

theorem array_parts {items others : List Value} (hitems : ∀ item ∈ items, Legible item)
    (hothers : ∀ other ∈ others, Legible other)
    (hcut : ∀ item ∈ items, ∀ other ∈ others, CutsFrom item.display.toList other.display.toList)
    (h : (array items).display.toList ++ r = (array others).display.toList ++ s) :
    items.map (fun item => item.display.toList) = others.map (fun other => other.display.toList) ∧
      r = s := by
  rw [toList_display_array, toList_display_array] at h
  refine separated_cut true [] (show ']' ∈ _ by decide)
    (List.forall_mem_map.2 fun item hitem => (hitems item hitem).begins)
    (List.forall_mem_map.2 fun other hother => (hothers other hother).begins)
    (List.forall_mem_map.2 fun item hitem => List.forall_mem_map.2 (hcut item hitem)) ?_
  simpa using h

theorem document_parts {fields others : Document}
    (hcut : ∀ field ∈ fields, ∀ other ∈ others, CutsFrom (fieldText field) (fieldText other))
    (h : (document fields).display.toList ++ r = (document others).display.toList ++ s) :
    fields.map fieldText = others.map fieldText ∧ r = s := by
  cases fields with
  | nil =>
    cases others with
    | nil => exact ⟨rfl, List.append_cancel_left h⟩
    | cons other others =>
      rw [toList_display_document] at h
      exact absurd (List.cons.inj (List.cons.inj h).2).1 (by decide)
  | cons field fields =>
    cases others with
    | nil =>
      rw [toList_display_document] at h
      exact absurd (List.cons.inj (List.cons.inj h).2).1 (by decide)
    | cons other others =>
      rw [toList_display_document, toList_display_document] at h
      refine separated_cut true ['\x7d'] (show ' ' ∈ _ by decide)
        (List.forall_mem_map.2 fun field _ => begins_fieldText field)
        (List.forall_mem_map.2 fun other _ => begins_fieldText other)
        (List.forall_mem_map.2 fun field hfield => List.forall_mem_map.2 (hcut field hfield)) ?_
      simpa using h

/-- A legible value can be told from what stands behind it. -/
theorem Legible.cut (ha : Legible a) (hb : Legible b) : CutsFrom a.display.toList b.display.toList := by
  induction ha generalizing b with
  | scalar hscalar hunquoted =>
    intro r s hr hs h
    have hkind := (Legible.scalar hscalar hunquoted).sameKind hb h
    obtain ⟨hdisplay, hrest⟩ := hkind.cut hscalar hunquoted hb.unquoted hr hs h
    exact ⟨congrArg String.toList hdisplay, hrest⟩
  | array hitems ih =>
    intro r s hr hs h
    obtain ⟨others, rfl⟩ := ((Legible.array hitems).sameKind hb h).array_inv
    obtain ⟨hparts, hrest⟩ := array_parts hitems hb.items
      (fun item hitem other hother => ih item hitem (hb.items other hother)) h
    exact ⟨by rw [toList_display_array, hparts, ← toList_display_array], hrest⟩
  | document hkeys hfields ih =>
    intro r s hr hs h
    obtain ⟨others, rfl⟩ := ((Legible.document hkeys hfields).sameKind hb h).document_inv
    obtain ⟨-, hrest⟩ := document_parts (fun field hfield other hother =>
      fieldText_cut (hkeys field hfield) (hb.fields.1 other hother)
        (ih field hfield (hb.fields.2 other hother))) h
    rw [hrest] at h
    exact ⟨List.append_cancel_right h, hrest⟩

theorem map_eq_map_iff {α β : Type} {f : α → β} {xs ys : List α} :
    xs.map f = ys.map f ↔ List.Forall₂ (fun x y => f x = f y) xs ys := by
  rw [← List.forall₂_eq_eq_eq, List.forall₂_map_left_iff, List.forall₂_map_right_iff]

theorem forall₂_congr_of_zip {α β : Type} {R S : α → β → Prop} {xs : List α} {ys : List β}
    (h : ∀ pair ∈ xs.zip ys, (R pair.1 pair.2 ↔ S pair.1 pair.2)) :
    List.Forall₂ R xs ys ↔ List.Forall₂ S xs ys := by
  rw [List.forall₂_iff_zip, List.forall₂_iff_zip]
  exact and_congr_right fun _ => forall₂_congr fun x y => forall_congr' fun hmem => h (x, y) hmem

theorem fieldText_inj {field other : String × Value} (hkey : '"' ∉ field.1.toList)
    (hother : '"' ∉ other.1.toList) (h : fieldText field = fieldText other) :
    field.1 = other.1 ∧ field.2.display = other.2.display := by
  obtain ⟨hkeys, hvalues⟩ := cut_unique hkey hother (List.cons.inj h).2
  exact ⟨String.toList_inj.1 hkeys, String.toList_inj.1 (List.cons.inj (List.cons.inj hvalues).2).2⟩

theorem display_document_congr {fields others : Document}
    (h : fields.map fieldText = others.map fieldText) :
    (document fields).display = (document others).display := by
  cases fields with
  | nil => rw [List.map_eq_nil_iff.1 h.symm]
  | cons field fields =>
    cases others with
    | nil => cases h
    | cons other others =>
      rw [← String.toList_inj, toList_display_document, toList_display_document, h]

/-! ### Values that are built alike -/

/-- Two values that have the same parts as far as their texts go: in each place where one of them has a
scalar, the other one has something that reads like it. -/
inductive Alike : Value → Value → Prop
  | text {a b : Value} (hscalar : a.IsScalar ∨ b.IsScalar) (h : a.display = b.display) : Alike a b
  | array {items others : List Value} (hlength : items.length = others.length)
    (h : ∀ pair ∈ items.zip others, Alike pair.1 pair.2) : Alike (.array items) (.array others)
  | document {fields others : Document} (hkeys : Keyed.keys fields = Keyed.keys others)
    (h : ∀ pair ∈ fields.zip others, Alike pair.1.2 pair.2.2) :
    Alike (.document fields) (.document others)

theorem keys_eq_iff {fields others : Document} : Keyed.keys fields = Keyed.keys others ↔
    List.Forall₂ (fun field other => field.1 = other.1) fields others := map_eq_map_iff

theorem alike_scalar_iff (h : a.IsScalar ∨ b.IsScalar) : Alike a b ↔ a.display = b.display := by
  refine ⟨fun halike => ?_, .text h⟩
  cases halike with
  | text _ hdisplay => exact hdisplay
  | array => exact absurd h (or_self_iff.not.2 id)
  | document => exact absurd h (or_self_iff.not.2 id)

theorem alike_arrays_iff {items others : List Value} : Alike (.array items) (.array others) ↔
    List.Forall₂ Alike items others := by
  rw [List.forall₂_iff_zip]
  constructor
  · rintro (⟨hscalar, -⟩ | ⟨hlength, h⟩)
    · exact absurd hscalar (or_self_iff.not.2 id)
    · exact ⟨hlength, fun hmem => h _ hmem⟩
  · rintro ⟨hlength, h⟩
    exact .array hlength fun pair hpair => h hpair

theorem alike_documents_iff {fields others : Document} : Alike (.document fields) (.document others) ↔
    List.Forall₂ (fun field other => field.1 = other.1 ∧ Alike field.2 other.2) fields others := by
  rw [List.forall₂_iff_zip]
  constructor
  · rintro (⟨hscalar, -⟩ | - | ⟨hkeys, h⟩)
    · exact absurd hscalar (or_self_iff.not.2 id)
    · have hkeys := keys_eq_iff.1 hkeys
      exact ⟨hkeys.length_eq, fun hmem => ⟨List.forall₂_zip hkeys hmem, h _ hmem⟩⟩
  · rintro ⟨hlength, h⟩
    refine .document (keys_eq_iff.2 ?_) fun pair hpair => (h hpair).2
    exact List.forall₂_iff_zip.2 ⟨hlength, fun hmem => (h hmem).1⟩

/-- Values that are built alike read the same. -/
theorem Alike.display_eq (h : Alike a b) : a.display = b.display := by
  induction h with
  | text _ h => exact h
  | @array items others hlength _ ih =>
    have hparts : items.map (fun item => item.display.toList) =
        others.map fun other => other.display.toList :=
      map_eq_map_iff.2 (List.forall₂_iff_zip.2 ⟨hlength, fun hmem => by rw [ih _ hmem]⟩)
    rw [← String.toList_inj, toList_display_array, toList_display_array, hparts]
  | @document fields others hkeys _ ih =>
    have hkeys := keys_eq_iff.1 hkeys
    refine display_document_congr (map_eq_map_iff.2 (List.forall₂_iff_zip.2 ⟨hkeys.length_eq, ?_⟩))
    intro field other hmem
    rw [fieldText, fieldText, List.forall₂_zip hkeys hmem, ih _ hmem]

/-- Legible values that read the same are built alike. -/
theorem Legible.alike (ha : Legible a) (hb : Legible b) (h : a.display = b.display) : Alike a b := by
  induction ha generalizing b with
  | scalar hscalar hunquoted => exact .text (.inl hscalar) h
  | @array items hitems ih =>
    obtain ⟨others, rfl⟩ := ((Legible.array hitems).sameKind_of_display hb h).array_inv
    have hparts := map_eq_map_iff.1 (array_parts (r := []) (s := []) hitems hb.items
      (fun item hitem other hother => (hitems item hitem).cut (hb.items other hother)) (by rw [h])).1
    refine .array hparts.length_eq fun pair hpair => ?_
    obtain ⟨hitem, hother⟩ := List.of_mem_zip hpair
    exact ih _ hitem (hb.items _ hother) (String.toList_inj.1 (List.forall₂_zip hparts hpair))
  | @document fields hkeys hfields ih =>
    obtain ⟨others, rfl⟩ := ((Legible.document hkeys hfields).sameKind_of_display hb h).document_inv
    have hparts := map_eq_map_iff.1 (document_parts (r := []) (s := []) (fun field hfield other hother =>
      fieldText_cut (hkeys field hfield) (hb.fields.1 other hother)
        ((hfields field hfield).cut (hb.fields.2 other hother))) (by rw [h])).1
    refine alike_documents_iff.2 (List.forall₂_iff_zip.2 ⟨hparts.length_eq, fun {field other} hmem => ?_⟩)
    obtain ⟨hfield, hother⟩ := List.of_mem_zip hmem
    obtain ⟨hkey, htext⟩ :=
      fieldText_inj (hkeys field hfield) (hb.fields.1 other hother) (List.forall₂_zip hparts hmem)
    exact ⟨hkey, ih field hfield (hb.fields.2 other hother) htext⟩

end Value

end DocQuery
