import DocQuery.Proofs.Value.Legible

/-!
# Texts and equality inside of values

`Value.same` is symmetric (`Value.same_symm`), and field by field where the keys are in one order
(`Value.same_aligned_iff`).  With what is known of texts this says where texts and equality part.  Values
that are built alike are the same unless there is a clash in one place of them
(`Value.Alike.same_iff`): two numbers of different kinds, say, or code that reads like what stands in
the other value.  Values that are the same are built alike unless they are written in different ways in
one place (`Value.alike_iff_of_same`), for the order of keys or the two zeros.
-/

namespace DocQuery

namespace Double

variable {x y : Double}

theorem same_iff : x.same y = true ↔ x.isNaN = false ∧ y.isNaN = false ∧ x.rank = y.rank := by
  cases hx : x.isNaN <;> cases hy : y.isNaN <;> simp [same, compare?, hx, hy]

/-- Only the two zeros are in one place. -/
theorem rank_eq_rank_iff : x.rank = y.rank ↔ x = y ∨ x.sizeWord = 0 ∧ y.sizeWord = 0 := by
  constructor
  · intro h
    by_cases hzero : x.sizeWord = 0 ∧ y.sizeWord = 0
    · exact .inr hzero
    · refine .inl (eq_of_sizeWord ?_ ?_) <;> unfold rank at h <;>
        cases hx : x.isNegative <;> cases hy : y.isNegative <;> simp [hx, hy] at h ⊢ <;> omega
  · rintro (rfl | ⟨hx, hy⟩)
    · rfl
    · simp [rank, hx, hy]

end Double

namespace Value

variable {a b : Value}

/-! ### Equality of parts -/

/-- Code with a scope is the same if the code is and the scopes are, as documents. -/
theorem same_codeWithScope_iff {s t : String} {scope other : Document} :
    (codeWithScope s scope).same (codeWithScope t other) = true ↔
      s = t ∧ (document scope).same (document other) = true := by
  rw [same, same, Bool.and_eq_true, beq_iff_eq]

theorem same_arrays_iff {items others : List Value} : (array items).same (.array others) = true ↔
    List.Forall₂ (fun item other => item.same other = true) items others := by
  rw [same]
  induction items generalizing others with
  | nil => cases others <;> simp [sameItems]
  | cons item items ih => cases others <;> simp [sameItems, ih]

theorem sameFields_iff {fields others : Document} : sameFields fields others = true ↔
    ∀ field ∈ fields, ∃ found, others.lookup field.1 = some found ∧ field.2.same found = true := by
  induction fields with
  | nil => simp [sameFields]
  | cons field fields ih =>
    obtain ⟨key, value⟩ := field
    rw [sameFields, Bool.and_eq_true, ih, List.forall_mem_cons]
    refine and_congr_left fun _ => ?_
    cases others.lookup key <;> simp

/-- Documents are the same if they have as many fields, and the same value under each key. -/
theorem same_documents_iff {fields others : Document} :
    (document fields).same (.document others) = true ↔ fields.length = others.length ∧
      ∀ field ∈ fields, ∃ found, others.lookup field.1 = some found ∧ field.2.same found = true := by
  rw [same, Bool.and_eq_true, beq_iff_eq, sameFields_iff]

/-- If the keys are in the same order, this goes field by field. -/
theorem same_aligned_iff {fields others : Document} (hkeys : Keyed.keys fields = Keyed.keys others)
    (hdistinct : Keyed.Distinct others) : (document fields).same (.document others) = true ↔
      List.Forall₂ (fun field other => field.2.same other.2 = true) fields others := by
  have hlength : fields.length = others.length := by
    simpa [Keyed.keys] using congrArg List.length hkeys
  have hlookup : ∀ pair ∈ fields.zip others, others.lookup pair.1.1 = some pair.2.2 := by
    rintro ⟨field, other⟩ hmem
    have hkey : field.1 = other.1 := List.forall₂_zip (map_eq_map_iff.1 hkeys) hmem
    rw [hkey]
    exact Keyed.lookup_of_mem hdistinct (List.of_mem_zip hmem).2
  have hfields : ∀ field, field ∈ fields ↔ ∃ pair ∈ fields.zip others, pair.1 = field := by
    intro field
    rw [← List.mem_map, List.map_fst_zip hlength.le]
  rw [same_documents_iff, List.forall₂_iff_zip]
  refine and_congr_right fun _ => ⟨fun h field other hmem => ?_, fun h field hfield => ?_⟩
  · obtain ⟨found, hfound, hsame⟩ := h field (List.of_mem_zip hmem).1
    rw [hlookup _ hmem] at hfound
    exact Option.some.inj hfound ▸ hsame
  · obtain ⟨pair, hmem, rfl⟩ := (hfields field).1 hfield
    exact ⟨_, hlookup pair hmem, h hmem⟩

theorem isScalar_iff_of_same (h : a.same b = true) : a.IsScalar ↔ b.IsScalar := by
  cases a <;> cases b <;> first | exact Iff.rfl | cases h

/-! ### Symmetry -/

theorem forall₂_turned {α β : Type} {R : α → β → Prop} {S : β → α → Prop} {xs : List α} {ys : List β}
    (h : List.Forall₂ R xs ys) (hturn : ∀ x ∈ xs, ∀ y ∈ ys, R x y → S y x) : List.Forall₂ S ys xs := by
  induction h with
  | nil => exact .nil
  | cons hhead htail ih =>
    exact .cons (hturn _ List.mem_cons_self _ List.mem_cons_self hhead)
      (ih fun x hx y hy => hturn x (List.mem_cons_of_mem _ hx) y (List.mem_cons_of_mem _ hy))

theorem same_documents_symm {fields others : Document} (ha : (document fields).WellKeyed)
    (hb : (document others).WellKeyed)
    (hsymm : ∀ field ∈ fields, ∀ other ∈ others, field.2.same other.2 = true →
      other.2.same field.2 = true)
    (h : (document fields).same (.document others) = true) :
    (document others).same (.document fields) = true := by
  have hfields := (Document.wellKeyed_iff.1 ha).1
  have hothers := (Document.wellKeyed_iff.1 hb).1
  rw [same_documents_iff] at h ⊢
  obtain ⟨hlength, hsame⟩ := h
  have hsubset : Keyed.keys fields ⊆ Keyed.keys others := by
    intro key hkey
    obtain ⟨field, hfield, rfl⟩ := List.mem_map.1 hkey
    obtain ⟨found, hlookup, -⟩ := hsame field hfield
    exact List.mem_map.2 ⟨_, Keyed.mem_of_lookup hlookup, rfl⟩
  -- as many distinct keys on either side, so every key of the other side is among them
  have hkeys : (Keyed.keys fields).Perm (Keyed.keys others) :=
    (hfields.subperm hsubset).perm_of_length_le (by simp [Keyed.keys, hlength])
  refine ⟨hlength.symm, fun other hother => ?_⟩
  obtain ⟨field, hfield, hkey⟩ :=
    List.mem_map.1 (hkeys.mem_iff.2 (List.mem_map.2 ⟨other, hother, rfl⟩))
  obtain ⟨found, hlookup, hsame⟩ := hsame field hfield
  rw [hkey, Keyed.lookup_of_mem hothers hother] at hlookup
  obtain rfl := Option.some.inj hlookup
  refine ⟨field.2, ?_, hsymm field hfield other hother hsame⟩
  rw [← hkey]
  exact Keyed.lookup_of_mem hfields hfield

/-- Equality of values is symmetric. -/
theorem same_symm (ha : a.WellKeyed) (hb : b.WellKeyed) (h : a.same b = true) : b.same a = true := by
  induction a using ind_scoped generalizing b with
  | rigid a hrigid =>
    obtain rfl := hrigid.same_iff.1 h
    exact h
  | double x =>
    cases b
    case double y =>
      rw [same, Double.same_iff] at h ⊢
      exact ⟨h.2.1, h.1, h.2.2.symm⟩
    all_goals cases h
  | codeWithScope s scope ih =>
    cases b
    case codeWithScope t other =>
      rw [wellKeyed_codeWithScope_iff] at ha hb
      rw [same_codeWithScope_iff] at h ⊢
      refine ⟨h.1.symm, same_documents_symm ha hb (fun field hfield found hfound => ?_) h.2⟩
      exact ih field hfield ((Document.wellKeyed_iff.1 ha).2 field hfield)
        ((Document.wellKeyed_iff.1 hb).2 found hfound)
    all_goals cases h
  | array items ih =>
    cases b
    case array others =>
      rw [wellKeyed_array_iff] at ha hb
      rw [same_arrays_iff] at h ⊢
      exact forall₂_turned h fun item hitem other hother =>
        ih item hitem (ha item hitem) (hb other hother)
    all_goals cases h
  | document fields ih =>
    cases b
    case document others =>
      refine same_documents_symm ha hb (fun field hfield other hother => ?_) h
      exact ih field hfield ((Document.wellKeyed_iff.1 ha).2 field hfield)
        ((Document.wellKeyed_iff.1 hb).2 other hother)
    all_goals cases h

theorem same_comm (ha : a.WellKeyed) (hb : b.WellKeyed) : a.same b = b.same a := by
  rw [Bool.eq_iff_iff]
  exact ⟨same_symm ha hb, same_symm hb ha⟩

/-! ### Parts in the same place -/

/-- In one place of two values that are built alike, there are parts that are related. -/
inductive Somewhere (R : Value → Value → Prop) : Value → Value → Prop
  | here {a b : Value} (h : R a b) : Somewhere R a b
  | item {items others : List Value} {item other : Value} (hmem : (item, other) ∈ items.zip others)
    (h : Somewhere R item other) : Somewhere R (.array items) (.array others)
  | field {fields others : Document} {field other : String × Value}
    (hmem : (field, other) ∈ fields.zip others) (h : Somewhere R field.2 other.2) :
    Somewhere R (.document fields) (.document others)

variable {R : Value → Value → Prop}

theorem somewhere_scalar_iff (hscalar : a.IsScalar ∨ b.IsScalar) : Somewhere R a b ↔ R a b := by
  refine ⟨fun h => ?_, .here⟩
  cases h with
  | here h => exact h
  | item => exact absurd hscalar (or_self_iff.not.2 id)
  | field => exact absurd hscalar (or_self_iff.not.2 id)

theorem not_somewhere_items {items others : List Value} (hlength : items.length = others.length)
    (hnot : ¬R (.array items) (.array others)) : ¬Somewhere R (.array items) (.array others) ↔
      List.Forall₂ (fun item other => ¬Somewhere R item other) items others := by
  rw [List.forall₂_iff_zip, and_iff_right hlength]
  constructor
  · exact fun h item other hmem hin => h (.item hmem hin)
  · rintro h (hhere | ⟨hmem, hin⟩)
    · exact hnot hhere
    · exact h hmem hin

theorem not_somewhere_fields {fields others : Document} (hlength : fields.length = others.length)
    (hnot : ¬R (.document fields) (.document others)) :
    ¬Somewhere R (.document fields) (.document others) ↔
      List.Forall₂ (fun field other => ¬Somewhere R field.2 other.2) fields others := by
  rw [List.forall₂_iff_zip, and_iff_right hlength]
  constructor
  · exact fun h field other hmem hin => h (.field hmem hin)
  · rintro h (hhere | - | ⟨hmem, hin⟩)
    · exact hnot hhere
    · exact h hmem hin

/-! ### Where values that are built alike differ -/

/-- A scalar that is written as it is, and another value that reads like it. -/
inductive Misread : Value → Value → Prop
  /-- code that is the text of another value -/
  | code {s : String} {b : Value} (hne : b ≠ .code s) (h : b.display = s) : Misread (.code s) b
  /-- code with a scope, which is not written at all -/
  | codeWithScope {s : String} {scope : Document} {b : Value}
    (hne : ∀ other, b = .codeWithScope s other → (document scope).same (.document other) = false)
    (h : b.display = s) : Misread (.codeWithScope s scope) b
  /-- regular expressions with slashes in different places -/
  | regex {p o q n : String} (hne : p ≠ q ∨ o ≠ n) (h : p ++ "/" ++ o = q ++ "/" ++ n) :
    Misread (.regex p o) (.regex q n)

theorem Misread.display_eq (h : Misread a b) : a.display = b.display := by
  cases h with
  | code hne h => rw [display, h]
  | codeWithScope hne h => rw [display, h]
  | regex hne h =>
    rw [display, display]
    simpa only [String.append_assoc, String.append_right_inj] using h

theorem Misread.not_same (h : Misread a b) : a.same b = false := by
  cases h with
  | @code s _ hne h =>
    have hrigid : (Value.code s).IsRigid := trivial
    exact hrigid.not_same_iff.2 hne.symm
  | @codeWithScope s scope _ hne h =>
    rw [Bool.eq_false_iff]
    intro hsame
    cases b
    case codeWithScope t other =>
      obtain ⟨rfl, hscopes⟩ := same_codeWithScope_iff.1 hsame
      rw [hne other rfl] at hscopes
      cases hscopes
    all_goals cases hsame
  | @regex p o q n hne h =>
    have hrigid : (Value.regex p o).IsRigid := trivial
    refine hrigid.not_same_iff.2 fun heq => ?_
    cases heq
    simp at hne

theorem misread_of_code {s : String} (hcode : a.code? = some s) (h : a.display = b.display)
    (hne : a.same b = false) : Misread a b := by
  rw [display_of_code? hcode] at h
  cases a <;> cases hcode
  case code =>
    have hrigid : (code s).IsRigid := trivial
    exact .code (hrigid.not_same_iff.1 hne).symm h.symm
  case codeWithScope scope =>
    refine .codeWithScope (fun other heq => ?_) h.symm
    rw [heq, Bool.eq_false_iff, ne_eq, same_codeWithScope_iff, and_iff_right rfl] at hne
    exact Bool.eq_false_iff.2 hne

/-- Two values in one place that can read the same and yet are not: numbers of different kinds, or no
numbers at all, or one that is misread for the other. -/
def Clash (a b : Value) : Prop :=
  (a.bracket = 2 ∧ b.bracket = 2 ∧ a.same b = false) ∨ Misread a b ∨ Misread b a

theorem Clash.isScalar (h : Clash a b) : a.IsScalar ∨ b.IsScalar := by
  rcases h with ⟨ha, -⟩ | h | h
  · exact .inl (isScalar_of_number ha)
  · left
    cases h <;> trivial
  · right
    cases h <;> trivial

theorem Clash.not_same (ha : a.WellKeyed) (hb : b.WellKeyed) (h : Clash a b) : a.same b = false := by
  rcases h with ⟨-, -, h⟩ | h | h
  · exact h
  · exact h.not_same
  · rw [same_comm ha hb]
    exact h.not_same

/-- Different scalars that read the same clash. -/
theorem clash_of_display (ha : a.WellKeyed) (hb : b.WellKeyed) (hscalar : a.IsScalar ∨ b.IsScalar)
    (h : a.display = b.display) (hne : a.same b = false) : Clash a b := by
  cases hcode : a.code? with
  | some s => exact .inr (.inl (misread_of_code hcode h hne))
  | none =>
    cases hcode' : b.code? with
    | some t =>
      rw [same_comm ha hb] at hne
      exact .inr (.inr (misread_of_code hcode' h.symm hne))
    | none =>
      have hkind := sameKind_of_heading (heading_eq hcode hcode' (r := []) (s := []) (by rw [h]))
      have hself : a.IsScalar := hscalar.elim id hkind.isScalar_iff.2
      by_cases hregex : ∃ p o, a = .regex p o
      · obtain ⟨p, o, rfl⟩ := hregex
        obtain ⟨q, n, rfl⟩ := hkind.regex_inv
        have hrigid : (regex p o).IsRigid := trivial
        refine .inr (.inl (.regex ?_ ?_))
        · rw [← not_and_or]
          rintro ⟨rfl, rfl⟩
          exact hrigid.not_same_iff.1 hne rfl
        · rw [display, display] at h
          simpa only [String.append_assoc, String.append_right_inj] using h
      · rcases hkind.eq_or_numbers hself hcode (by simpa using hregex) h with rfl | ⟨hna, hnb⟩
        · rcases hself.cases with hrigid | ⟨x, rfl⟩ | ⟨s, scope, rfl⟩
          · exact absurd rfl (hrigid.not_same_iff.1 hne)
          · exact .inl ⟨rfl, rfl, hne⟩
          · cases hcode
        · exact .inl ⟨hna, hnb, hne⟩

theorem not_clash_arrays {items others : List Value} : ¬Clash (.array items) (.array others) :=
  fun h => h.isScalar.elim id id

theorem not_clash_documents {fields others : Document} : ¬Clash (.document fields) (.document others) :=
  fun h => h.isScalar.elim id id

/-- Values that are built alike are the same, unless there is a clash in one place of them. -/
theorem Alike.same_iff (halike : Alike a b) (ha : a.WellKeyed) (hb : b.WellKeyed) :
    a.same b = true ↔ ¬Somewhere Clash a b := by
  induction halike with
  | @text a b hscalar h =>
    rw [somewhere_scalar_iff hscalar]
    constructor
    · intro hsame hclash
      rw [hclash.not_same ha hb] at hsame
      cases hsame
    · intro hclash
      by_contra hne
      exact hclash (clash_of_display ha hb hscalar h (Bool.eq_false_iff.2 hne))
  | @array items others hlength _ ih =>
    rw [wellKeyed_array_iff] at ha hb
    rw [same_arrays_iff, not_somewhere_items hlength not_clash_arrays]
    refine forall₂_congr_of_zip fun pair hpair => ?_
    obtain ⟨hitem, hother⟩ := List.of_mem_zip hpair
    exact ih pair hpair (ha _ hitem) (hb _ hother)
  | @document fields others hkeys _ ih =>
    obtain ⟨-, hvalues⟩ := Document.wellKeyed_iff.1 ha
    obtain ⟨hdistinct, hfound⟩ := Document.wellKeyed_iff.1 hb
    rw [same_aligned_iff hkeys hdistinct,
      not_somewhere_fields (keys_eq_iff.1 hkeys).length_eq not_clash_documents]
    refine forall₂_congr_of_zip fun pair hpair => ?_
    obtain ⟨hfield, hother⟩ := List.of_mem_zip hpair
    exact ih pair hpair (hvalues _ hfield) (hfound _ hother)

/-! ### Where equal values are not built alike -/

/-- Two values that can be the same and yet are not written in the same way. -/
inductive Variant : Value → Value → Prop
  /-- documents with their keys in different orders -/
  | keys {fields others : Document} (h : Keyed.keys fields ≠ Keyed.keys others) :
    Variant (.document fields) (.document others)
  /-- the two zeros of the binary format -/
  | zeros {x y : Double} (hx : x.sizeWord = 0) (hy : y.sizeWord = 0) (h : x ≠ y) :
    Variant (.double x) (.double y)

theorem display_iff_of_same_scalar (hscalar : a.IsScalar) (h : a.same b = true) :
    a.display = b.display ↔ ¬Variant a b := by
  rcases hscalar.cases with hrigid | ⟨x, rfl⟩ | ⟨s, scope, rfl⟩
  · obtain rfl := hrigid.same_iff.1 h
    refine iff_of_true rfl fun hvariant => ?_
    cases hvariant <;> exact hrigid
  · cases b
    case double y =>
      rw [same, Double.same_iff, Double.rank_eq_rank_iff] at h
      obtain ⟨hx, -, hrank⟩ := h
      have htext : (double x).display = (double y).display ↔ x = y := by
        rw [display, display, Double.display_eq_display_iff, hx]
        simp
      rw [htext]
      constructor
      · rintro rfl (_ | ⟨_, _, hne⟩)
        exact hne rfl
      · intro hvariant
        by_contra hne
        obtain ⟨hx, hy⟩ := hrank.resolve_left hne
        exact hvariant (.zeros hx hy hne)
    all_goals cases h
  · cases b
    case codeWithScope t other =>
      refine iff_of_true ?_ fun hvariant => ?_
      · rw [display, display, (same_codeWithScope_iff.1 h).1]
      · cases hvariant
    all_goals cases h

/-- Values that are the same are built alike, unless there are parts in one place of them that are
written in different ways. -/
theorem alike_iff_of_same (hkeyed : b.WellKeyed) (h : a.same b = true) :
    Alike a b ↔ ¬Somewhere Variant a b := by
  induction a using ind generalizing b with
  | scalar a hscalar =>
    rw [alike_scalar_iff (.inl hscalar), somewhere_scalar_iff (.inl hscalar)]
    exact display_iff_of_same_scalar hscalar h
  | array items ih =>
    cases b
    case array others =>
      have hsame := same_arrays_iff.1 h
      rw [alike_arrays_iff, not_somewhere_items hsame.length_eq (fun h => nomatch h)]
      refine forall₂_congr_of_zip fun pair hpair => ?_
      obtain ⟨hitem, hother⟩ := List.of_mem_zip hpair
      exact ih _ hitem (wellKeyed_array_iff.1 hkeyed _ hother) (List.forall₂_zip hsame hpair)
    all_goals cases h
  | document fields ih =>
    cases b
    case document others =>
      obtain ⟨hdistinct, hvalues⟩ := Document.wellKeyed_iff.1 hkeyed
      rw [alike_documents_iff]
      by_cases haligned : Keyed.keys fields = Keyed.keys others
      · have hsame := (same_aligned_iff haligned hdistinct).1 h
        rw [not_somewhere_fields hsame.length_eq (fun hvariant => by cases hvariant; contradiction)]
        refine forall₂_congr_of_zip fun pair hpair => ?_
        obtain ⟨hfield, hother⟩ := List.of_mem_zip hpair
        rw [and_iff_right (List.forall₂_zip (keys_eq_iff.1 haligned) hpair)]
        exact ih _ hfield (hvalues _ hother) (List.forall₂_zip hsame hpair)
      · refine iff_of_false (fun hparts => haligned ?_) (not_not_intro (.here (.keys haligned)))
        exact keys_eq_iff.2 (hparts.imp fun _ _ hpart => hpart.1)
    all_goals cases h

/-- One text that can be cut into parts in two ways: two arrays or documents that read the same, though
their parts do not. -/
structure Crossing (a b : Value) : Prop where
  text : a.display = b.display
  parts : ¬Alike a b
  illegible : ¬(a.Legible ∧ b.Legible)

theorem crossing_of_display (h : a.display = b.display) (hparts : ¬Alike a b) : Crossing a b where
  text := h
  parts := hparts
  illegible hlegible := hparts (hlegible.1.alike hlegible.2 h)

/-- Values that are the same read the same, unless there are parts in one place of them that are written
in different ways, and the two texts are not one by the way it is cut. -/
theorem display_iff_of_same (hkeyed : b.WellKeyed) (h : a.same b = true) :
    a.display = b.display ↔ ¬Somewhere Variant a b ∨ Crossing a b := by
  rw [← alike_iff_of_same hkeyed h]
  constructor
  · intro htext
    by_cases halike : Alike a b
    · exact .inl halike
    · exact .inr (crossing_of_display htext halike)
  · rintro (halike | hcrossing)
    · exact halike.display_eq
    · exact hcrossing.text

end Value

end DocQuery
