import DocQuery.Proofs.Query.Requests

/-!
# The shortest beginning that is a reference

A text begins with a path if it is that path or goes on behind it with a point.  Of the beginnings that
are declared as references the shortest one is found, with what stands behind it
(`Collection.reference?_eq_some_iff`).

The beginnings can be found without taking the text to pieces, by going from one point to the next one.
`Collection.scanFrom` does this on offsets in bytes, and gives up if it is to cut the text where no
character ends.  This never happens: at each round the text in front of the offset is the keys that
have been passed, each with its point, and so the scan finds what the search by keys does
(`Collection.scanFrom_passed`).  All of it together is `Collection.reference?_is_shortest`.
-/

namespace DocQuery

/-! ### Beginnings of a text -/

namespace Path

/-- A text is a path, or goes on behind it. -/
def BeginsWith (p front : String) : Prop := p = front ∨ ∃ rest, p = front ++ "." ++ rest

variable {p front back key : String} {path rest : Path} {offset : Nat}

theorem text_cons (hrest : rest ≠ []) (key : String) :
    text (key :: rest) = key ++ "." ++ text rest := by
  obtain ⟨next, rest, rfl⟩ := List.exists_cons_of_ne_nil hrest
  exact String.intercalate_cons_cons

theorem text_append (hpath : path ≠ []) (hrest : rest ≠ []) :
    text (path ++ rest) = text path ++ "." ++ text rest := by
  induction path with
  | nil => exact absurd rfl hpath
  | cons key path ih =>
    cases path with
    | nil => simpa [text] using text_cons hrest key
    | cons next path =>
      have hnext : next :: path ≠ [] := List.cons_ne_nil next path
      rw [List.cons_append, text_cons (by simp), ih hnext, text_cons hnext]
      simp only [String.append_assoc]

theorem beginsWith_iff : BeginsWith p front ↔ ofText front <+: ofText p := by
  constructor
  · rintro (rfl | ⟨rest, rfl⟩)
    · exact List.prefix_rfl
    · rw [ofText_append]
      exact List.prefix_append _ _
  · rintro ⟨rest, hrest⟩
    by_cases hnil : rest = []
    · rw [hnil, List.append_nil] at hrest
      exact .inl (ofText_injective hrest.symm)
    · have htext := congrArg text hrest
      rw [text_append (ofText_ne_nil front) hnil, text_ofText, text_ofText] at htext
      exact .inr ⟨text rest, htext.symm⟩

theorem BeginsWith.length_le (h : BeginsWith p front) : front.length ≤ p.length := by
  rcases h with rfl | ⟨rest, rfl⟩
  · exact le_rfl
  · simp only [String.length_append]
    omega

/-- Two beginnings of one length are the same. -/
theorem BeginsWith.eq_of_length {other : String} (h : BeginsWith p front) (hother : BeginsWith p other)
    (hlength : front.length = other.length) : front = other := by
  have hfront : ∀ {beginning}, BeginsWith p beginning → beginning.toList <+: p.toList := by
    rintro beginning (rfl | ⟨rest, rfl⟩)
    · exact List.prefix_rfl
    · simp
  refine String.toList_inj.1 ?_
  exact (List.prefix_of_prefix_length_le (hfront h) (hfront hother) hlength.le).eq_of_length hlength

/-! ### Offsets in bytes -/

/-- The offset in bytes of the first point of a text, or its size if there is none. -/
def pointOffset (tail : String) : Nat :=
  (String.ofList (tail.toList.takeWhile (· ≠ '.'))).utf8ByteSize

/-- The text in front of an offset in bytes and the text behind it, if a character begins there or the
text ends there. -/
def cut? (p : String) (offset : Nat) : Option (String × String) :=
  if h : String.Pos.Raw.IsValid p ⟨offset⟩ then
    let pos := p.pos ⟨offset⟩ h
    some ((p.sliceTo pos).copy, (p.sliceFrom pos).copy)
  else none

theorem cut?_eq_some_iff :
    cut? p offset = some (front, back) ↔ p = front ++ back ∧ front.utf8ByteSize = offset := by
  unfold cut?
  constructor
  · intro h
    split at h
    · next hvalid =>
      have hsplits := (p.pos ⟨offset⟩ hvalid).splits
      cases h
      exact ⟨hsplits.eq_append, (congrArg String.Pos.Raw.byteIdx hsplits.offset_eq_rawEndPos).symm⟩
    · cases h
  · rintro ⟨rfl, rfl⟩
    have hvalid : String.Pos.Raw.IsValid (front ++ back) ⟨front.utf8ByteSize⟩ :=
      String.Pos.Raw.isValid_iff_exists_append.2 ⟨front, back, rfl, rfl⟩
    obtain ⟨hfront, hback⟩ := ((front ++ back).pos _ hvalid).splits.eq ⟨rfl, rfl⟩
    rw [dif_pos hvalid]
    dsimp only
    rw [hfront, hback]

theorem cut?_eq_none (h : p.utf8ByteSize < offset) : cut? p offset = none := by
  rw [Option.eq_none_iff_forall_ne_some]
  rintro ⟨front, back⟩ hcut
  obtain ⟨rfl, rfl⟩ := cut?_eq_some_iff.1 hcut
  rw [String.utf8ByteSize_append] at h
  omega

theorem cut?_append (front back : String) :
    cut? (front ++ back) front.utf8ByteSize = some (front, back) :=
  cut?_eq_some_iff.2 ⟨rfl, rfl⟩

/-- A key without points in front of a point, or at the end of the text. -/
theorem pointOffset_append (h : Plain key)
    (hback : back = "" ∨ ∃ tail, back = "." ++ tail) : pointOffset (key ++ back) = key.utf8ByteSize := by
  have hkey : ∀ c ∈ key.toList, decide (c ≠ '.') = true := fun c hc =>
    decide_eq_true fun hpoint => h (hpoint ▸ hc)
  have hstop : back.toList.takeWhile (· ≠ '.') = [] := by
    rcases hback with rfl | ⟨tail, rfl⟩ <;> simp
  rw [pointOffset, String.toList_append, List.takeWhile_append_of_pos hkey, hstop, List.append_nil,
    String.ofList_toList]

/-- The text in front of what has not been looked at: each key that has been passed, with its point. -/
def passed (taken : Path) : String := String.join (taken.map (· ++ "."))

theorem text_snoc (taken : Path) (key : String) : text (taken ++ [key]) = passed taken ++ key := by
  induction taken with
  | nil => simp [text, passed]
  | cons first taken ih =>
    rw [List.cons_append, text_cons (by simp), ih]
    simp [passed, String.append_assoc]

theorem passed_snoc (taken : Path) (key : String) :
    passed (taken ++ [key]) = text (taken ++ [key]) ++ "." := by
  rw [text_snoc]
  simp [passed, String.append_assoc]

end Path

/-! ### The reference that is found -/

namespace Collection

open DocQuery.Path

variable {c : Collection} {p field target key : String} {many : Bool} {taken rest : Path}
  {reference : Reference}

/-- A field is declared to hold ids of documents in a collection, alone or in an array. -/
def Refers (c : Collection) (field target : String) (many : Bool) : Prop :=
  ∃ info, c.fields.lookup field = some info ∧ info.target = some target ∧ info.many = many

theorem isReference_iff {path : Path} :
    c.IsReference path ↔ ∃ target many, c.Refers (Path.text path) target many := by
  constructor
  · rintro ⟨info, target, hinfo, htarget⟩
    exact ⟨target, info.many, info, hinfo, htarget, rfl⟩
  · rintro ⟨target, many, info, hinfo, htarget, -⟩
    exact ⟨info, target, hinfo, htarget⟩

/-- Of the beginnings of a text that are references this is the shortest one, as it is declared; behind
it there is nothing but possibly a point, or a point and then more. -/
structure IsShortest (c : Collection) (p : String) (reference : Reference) : Prop where
  begins : BeginsWith p reference.field
  refers : c.Refers reference.field reference.collection reference.many
  first : ∀ front, BeginsWith p front → front.length < reference.field.length →
    ¬∃ target many, c.Refers front target many
  rest : reference.rest = none ∧ (p = reference.field ∨ p = reference.field ++ ".") ∨
    ∃ rest, reference.rest = some rest ∧ rest ≠ "" ∧ p = reference.field ++ "." ++ rest

theorem isShortest_of_reference? (h : c.reference? p = some reference) : c.IsShortest p reference := by
  obtain ⟨front, back, hpath, hfront, hfield, hback, -, -⟩ := referenceFrom_eq_some h
  rw [List.nil_append] at hfield
  have hplain : ∀ part ∈ front, Plain part := fun part hpart =>
    plain_of_mem_ofText (hpath ▸ List.mem_append_left back hpart)
  have hof : ofText reference.field = front := by
    rw [hfield, ofText_text hfront hplain]
  have hbegins : BeginsWith p reference.field := by
    rw [beginsWith_iff, hpath, hof]
    exact List.prefix_append _ _
  refine ⟨hbegins, exists_info_of_referenceFrom h, fun other hother hshorter hrefers => ?_, ?_⟩
  · have hinside : ofText other <+: ofText reference.field := by
      rcases List.prefix_or_prefix_of_prefix (beginsWith_iff.1 hother) (beginsWith_iff.1 hbegins) with
        hinside | hbeyond
      · exact hinside
      · exact absurd (beginsWith_iff.2 hbeyond).length_le (by omega)
    refine (isFirstReference_of_reference? h).first _ hinside (ofText_ne_nil other) ?_
      (isReference_iff.2 (by rwa [text_ofText]))
    rintro heq
    rw [ofText_injective heq] at hshorter
    exact lt_irrefl _ hshorter
  · rw [hback, restOf]
    have hp : p = text (front ++ back) := by rw [← hpath, text_ofText]
    rcases eq_or_ne back [] with rfl | hne
    · exact .inl ⟨rfl, .inl (by rw [hp, hfield, List.append_nil])⟩
    · rw [text_append hfront hne, ← hfield] at hp
      by_cases hempty : text back = ""
      · exact .inl ⟨if_pos hempty, .inr (by rw [hp, hempty, String.append_empty])⟩
      · exact .inr ⟨text back, if_neg hempty, hempty, hp⟩

/-- No reference is found if and only if no beginning of the text is one. -/
theorem reference?_eq_none_iff :
    c.reference? p = none ↔
      ∀ front, BeginsWith p front → ¬∃ target many, c.Refers front target many := by
  constructor
  · intro h front hfront hrefers
    refine not_isReference_of_reference?_eq_none h (beginsWith_iff.1 hfront) (ofText_ne_nil front) ?_
    exact isReference_iff.2 (by rwa [text_ofText])
  · intro h
    cases hfound : c.reference? p with
    | none => rfl
    | some reference =>
      have hshortest := isShortest_of_reference? hfound
      exact absurd ⟨_, _, hshortest.refers⟩ (h _ hshortest.begins)

/-- Only one reference can be the shortest one. -/
theorem IsShortest.eq {other : Reference} (h : c.IsShortest p reference)
    (hother : c.IsShortest p other) : reference = other := by
  have hfield : reference.field = other.field := by
    refine h.begins.eq_of_length hother.begins (le_antisymm ?_ ?_)
    · exact not_lt.1 fun hlt => h.first _ hother.begins hlt ⟨_, _, hother.refers⟩
    · exact not_lt.1 fun hlt => hother.first _ h.begins hlt ⟨_, _, h.refers⟩
  obtain ⟨field, collection, rest, many⟩ := reference
  obtain ⟨_, otherCollection, otherRest, otherMany⟩ := other
  obtain rfl : field = _ := hfield
  obtain ⟨info, hinfo, htarget, hmany⟩ := h.refers
  obtain ⟨otherInfo, hotherInfo, hotherTarget, hotherMany⟩ := hother.refers
  obtain rfl : info = otherInfo := Option.some.inj (hinfo.symm.trans hotherInfo)
  obtain rfl : collection = otherCollection := Option.some.inj (htarget.symm.trans hotherTarget)
  obtain rfl : many = otherMany := hmany.symm.trans hotherMany
  have hlong : ∀ {back}, back ≠ "" → p = field ++ "." ++ back → ¬(p = field ∨ p = field ++ ".") := by
    rintro back hback rfl hshort
    have hpos : 0 < back.length := Nat.pos_of_ne_zero (by simpa using hback)
    rcases hshort with heq | heq <;>
    · have := congrArg String.length heq
      simp only [String.length_append] at this
      omega
  rcases h.rest, hother.rest with
    ⟨⟨rfl, hp⟩ | ⟨back, rfl, hne, hp⟩, ⟨rfl, hq⟩ | ⟨otherBack, rfl, hotherNe, hq⟩⟩
  · rfl
  · exact absurd hp (hlong hotherNe hq)
  · exact absurd hq (hlong hne hp)
  · rw [(String.append_right_inj _).1 (hp.symm.trans hq)]

/-- The reference that is found is the shortest one. -/
theorem reference?_eq_some_iff : c.reference? p = some reference ↔ c.IsShortest p reference := by
  refine ⟨isShortest_of_reference?, fun h => ?_⟩
  cases hfound : c.reference? p with
  | none => exact absurd ⟨_, _, h.refers⟩ (reference?_eq_none_iff.1 hfound _ h.begins)
  | some other => rw [(isShortest_of_reference? hfound).eq h]

/-! ### Going from point to point -/

/-- The search for the shortest beginning that is a reference, from an offset on: up to the next point
and on behind it, until the text ends. It fails if the text cannot be cut at an offset. -/
def scanFrom (c : Collection) (p : String) (start : Nat) : Option (Option Reference) :=
  match cut? p start with
  | none => none
  | some (_, tail) =>
    let stop := start + pointOffset tail
    match _hcut : cut? p stop with
    | none => none
    | some (field, _) =>
      match (c.fields.lookup field).bind fun info => info.target.map fun target => (info, target) with
      | some (info, target) =>
        let rest := ((cut? p (stop + 1)).map Prod.snd).filter (· ≠ "")
        some (some ⟨field, target, rest, info.many⟩)
      | none => if stop = p.utf8ByteSize then some none else scanFrom c p (stop + 1)
termination_by p.utf8ByteSize + 1 - start
decreasing_by
  obtain ⟨rfl, hfield⟩ := cut?_eq_some_iff.1 _hcut
  rw [String.utf8ByteSize_append] at *
  omega

/-- One round, at offsets that the text can be cut at. -/
theorem scanFrom_eq {front tail back : String} {start stop : Nat}
    (hstart : cut? p start = some (front, tail)) (hstop : start + pointOffset tail = stop)
    (hfield : cut? p stop = some (field, back)) :
    c.scanFrom p start =
      match (c.fields.lookup field).bind fun info => info.target.map fun target => (info, target) with
      | some (info, target) =>
        some (some ⟨field, target, ((cut? p (stop + 1)).map Prod.snd).filter (· ≠ ""), info.many⟩)
      | none => if stop = p.utf8ByteSize then some none else c.scanFrom p (stop + 1) := by
  subst hstop
  conv_lhs => unfold scanFrom
  rw [hstart]
  dsimp only
  split
  · next hnone => exact absurd (hfield.symm.trans hnone) (by simp)
  · next hsome =>
    obtain ⟨rfl, -⟩ := Prod.mk.inj (Option.some.inj (hfield.symm.trans hsome))
    rfl

/-- The scan behind the keys that have been passed. The induction is on the keys that are left, each of
which is one round; only behind the last one the text ends. -/
theorem scanFrom_passed (hrest : rest ≠ []) (hplain : ∀ key ∈ rest, Plain key)
    (hp : p = passed taken ++ text rest) :
    c.scanFrom p (passed taken).utf8ByteSize = some (c.referenceFrom taken rest) := by
  induction rest generalizing taken with
  | nil => exact absurd rfl hrest
  | cons key rest ih =>
    have hkey : Plain key := hplain key List.mem_cons_self
    have hsize : (text (taken ++ [key])).utf8ByteSize =
        (passed taken).utf8ByteSize + key.utf8ByteSize := by
      rw [text_snoc, String.utf8ByteSize_append]
    by_cases hnil : rest = []
    · -- the last key: behind it the text ends
      subst hnil
      have hend : p = text (taken ++ [key]) := by rw [hp, text_snoc]; simp [text]
      have hstart := cut?_append (passed taken) key
      have hfield := cut?_append p ""
      rw [← text_snoc, ← hend] at hstart
      rw [String.append_empty] at hfield
      have hstop : (passed taken).utf8ByteSize + pointOffset key = p.utf8ByteSize := by
        rw [← String.append_empty (s := key), pointOffset_append hkey (.inl rfl), hend, hsize]
      rw [scanFrom_eq hstart hstop hfield, cut?_eq_none (Nat.lt_succ_self _), if_pos rfl, referenceFrom,
        ← hend]
      dsimp only [Option.map_none]
      cases (c.fields.lookup p).bind fun info => info.target.map fun target => (info, target) <;> rfl
    · -- a point stands behind the key
      have hnext : p = passed (taken ++ [key]) ++ text rest := by
        rw [hp, text_cons hnil, passed_snoc, text_snoc]
        simp only [String.append_assoc]
      have hnextSize : (passed (taken ++ [key])).utf8ByteSize =
          (text (taken ++ [key])).utf8ByteSize + 1 := by
        rw [passed_snoc, String.utf8ByteSize_append]
        rfl
      have hstart := cut?_append (passed taken) (text (key :: rest))
      have hfield := cut?_append (text (taken ++ [key])) ("." ++ text rest)
      have hbehind := cut?_append (passed (taken ++ [key])) (text rest)
      rw [← String.append_assoc, ← passed_snoc, ← hnext] at hfield
      rw [← hnext, hnextSize] at hbehind
      rw [← hp] at hstart
      have hstop : (passed taken).utf8ByteSize + pointOffset (text (key :: rest)) =
          (text (taken ++ [key])).utf8ByteSize := by
        rw [text_cons hnil, String.append_assoc, pointOffset_append hkey (.inr ⟨_, rfl⟩), hsize]
      have hmore : (text (taken ++ [key])).utf8ByteSize ≠ p.utf8ByteSize := by
        rw [hnext, String.utf8ByteSize_append, hnextSize]
        omega
      have hrest : (some (text rest)).filter (· ≠ "") = restOf rest := by
        by_cases hempty : text rest = "" <;> simp [restOf, hempty]
      rw [scanFrom_eq hstart hstop hfield, hbehind, if_neg hmore, ← hnextSize,
        ih hnil (fun key hkey => hplain key (List.mem_cons_of_mem _ hkey)) hnext, referenceFrom]
      dsimp only [Option.map_some]
      rw [hrest]
      cases (c.fields.lookup (text (taken ++ [key]))).bind fun info =>
        info.target.map fun target => (info, target) <;> rfl

/-- Going from point to point always comes to an end and never cuts a character, and finds what the
search by keys does. -/
theorem scanFrom_zero (c : Collection) (p : String) : c.scanFrom p 0 = some (c.reference? p) := by
  have hp : p = passed [] ++ text (ofText p) := by
    rw [text_ofText]
    rfl
  exact scanFrom_passed (ofText_ne_nil p) (fun _ => plain_of_mem_ofText) hp

/-- The reference of a path: the search by offsets comes to an end with it, there is none only where no
beginning of the path is a reference, and otherwise it is the shortest one, with what stands behind. -/
theorem reference?_is_shortest (c : Collection) (p : String) :
    c.scanFrom p 0 = some (c.reference? p) ∧
      (c.reference? p = none ↔
        ∀ front, BeginsWith p front → ¬∃ target many, c.Refers front target many) ∧
      ∀ reference, c.reference? p = some reference ↔ c.IsShortest p reference :=
  ⟨c.scanFrom_zero p, reference?_eq_none_iff, fun _ => reference?_eq_some_iff⟩

end Collection

end DocQuery
