import DocQuery.Catalog.Reader
import DocQuery.Proofs.Keyed
import Mathlib.Data.List.Nodup
import Mathlib.Logic.Function.Basic

/-!
# Reading records

What `record?` finds in a value, as a function from names to what stands under them. Three things
are said of it: a record written with all its members, or some of them, is read as these
(`record?_memberForms`); one more member changes what stands under its name and nothing else
(`record?_insert`); and so does another value under one name (`record?_inMember`). A map is read
value by value (`map?_memberForms`, `map?_inMap`).
-/

namespace DocQuery.Catalog

open Json (Form)

/-! ### Members with names -/

theorem named?_append (before after : List (Option String × Form)) :
    named? (before ++ after) =
      (named? before).bind fun members => (named? after).map (members ++ ·) := by
  induction before with
  | nil => simp [named?]
  | cons member before ih =>
    obtain ⟨name, value⟩ := member
    cases name with
    | none => rfl
    | some name =>
      simp only [List.cons_append, named?, ih, Option.bind_eq_bind, Option.bind_some]
      cases named? before <;> cases named? after <;> rfl

theorem named?_memberForms (members : List (String × Json)) :
    named? (Json.memberForms members) = some (members.map fun (name, value) => (name, value.form)) := by
  induction members with
  | nil => rfl
  | cons member members ih => simp [Json.memberForms, named?, ih]

/-- Names that all mean something are the ones that are written. -/
theorem map_fst_of_named? {members : List (Option String × Form)} {found : List (String × Form)}
    (h : named? members = some found) : members.map Prod.fst = (Keyed.keys found).map some := by
  induction members generalizing found with
  | nil =>
    cases h
    rfl
  | cons member members ih =>
    obtain ⟨_ | name, value⟩ := member
    · cases h
    · simp only [named?, Option.bind_eq_bind, Option.bind_some, Option.bind_eq_some_iff] at h
      obtain ⟨rest, hrest, hfound⟩ := h
      cases hfound
      simp [Keyed.keys, ih hrest]

/-! ### Records -/

/-- The members that count are there at most once. -/
def OnceEach (names : List String) (members : List (String × Form)) : Prop :=
  Keyed.Distinct (members.filter fun member => names.contains member.1)

theorem record?_object {names : List String} {members : List (Option String × Form)}
    {found : List (String × Form)} (h : named? members = some found) (honce : OnceEach names found) :
    record? names (.object members) = some (names.map fun name => found.lookup name) := by
  have hlength := Keyed.length_eraseDups_keys_eq_iff.2 honce
  simp only [Keyed.keys] at hlength
  simp only [record?, h, Option.bind_eq_bind, Option.bind_some, hlength, if_true, Option.some.injEq]
  refine List.map_congr_left fun name hname => ?_
  exact Keyed.lookup_filter (p := fun name => names.contains name) (by simpa using hname) found

theorem record?_object_eq_none {names : List String} {members : List (Option String × Form)}
    (h : ∀ found, named? members = some found → ¬ OnceEach names found) :
    record? names (.object members) = none := by
  cases hfound : named? members with
  | none => simp [record?, hfound]
  | some found =>
    have hlength := mt Keyed.length_eraseDups_keys_eq_iff.1 (h found hfound)
    simp only [Keyed.keys] at hlength
    simp only [record?, hfound, Option.bind_eq_bind, Option.bind_some, hlength, if_false]

theorem OnceEach.of_distinct {names : List String} {members : List (String × Form)}
    (h : Keyed.Distinct members) : OnceEach names members :=
  h.sublist (List.filter_sublist.map Prod.fst)

/-- One more member that counts must be new. -/
theorem onceEach_insert_iff {names : List String} {name : String} (hname : name ∈ names)
    {before after : List (String × Form)} {value : Form} :
    OnceEach names (before ++ (name, value) :: after) ↔
      name ∉ Keyed.keys (before ++ after) ∧ OnceEach names (before ++ after) := by
  have hcontains : names.contains name = true := by simpa using hname
  have hkeys : name ∈ Keyed.keys ((before ++ after).filter fun member => names.contains member.1) ↔
      name ∈ Keyed.keys (before ++ after) := by
    refine ⟨fun h => (List.filter_sublist.map Prod.fst).subset h, fun h => ?_⟩
    obtain ⟨member, hmember, rfl⟩ := List.mem_map.1 h
    exact List.mem_map_of_mem (List.mem_filter.2 ⟨hmember, hcontains⟩)
  rw [← hkeys]
  simp only [OnceEach, Keyed.Distinct, Keyed.keys, List.filter_append, List.map_append,
    List.filter_cons_of_pos (p := fun member : String × Form => names.contains member.1)
      (a := (name, value)) hcontains, List.map_cons]
  rw [List.nodup_middle, List.nodup_cons]

theorem lookup_insert {name : String} {before after : List (String × Form)}
    (hnew : name ∉ Keyed.keys (before ++ after)) (value : Form) :
    (fun key => (before ++ (name, value) :: after).lookup key) =
      Function.update (fun key => (before ++ after).lookup key) name (some value) := by
  funext key
  by_cases hkey : key = name
  · subst hkey
    rw [Function.update_self]
    exact Keyed.lookup_split (fun h => hnew (by simp [Keyed.keys] at h ⊢; exact .inl h)) value after
  · rw [Function.update_of_ne hkey, List.lookup_append, List.lookup_append, List.lookup_cons,
      beq_false_of_ne hkey]

theorem exists_of_named?_insert {name : String} {value : Form}
    {before after : List (Option String × Form)} {found : List (String × Form)}
    (h : named? (before ++ (some name, value) :: after) = some found) :
    ∃ front back, named? before = some front ∧ named? after = some back ∧
      found = front ++ (name, value) :: back := by
  simp only [named?_append, named?, Option.bind_eq_bind, Option.bind_some,
    Option.bind_eq_some_iff, Option.map_eq_some_iff, Option.some.injEq] at h
  obtain ⟨front, hfront, _, ⟨back, hback, rfl⟩, rfl⟩ := h
  exact ⟨front, back, hfront, hback, rfl⟩

/-- A member under a name that counts and is new: nothing else changes in what is found. -/
theorem record?_insert {names : List String} {name : String} (hname : name ∈ names)
    {before after : List (Option String × Form)}
    (hnew : some name ∉ (before ++ after).map Prod.fst) :
    ∃ found : Option (String → Option Form), (∀ slot ∈ found, slot name = none) ∧
      record? names (.object (before ++ after)) = found.map names.map ∧
      ∀ value, record? names (.object (before ++ (some name, value) :: after)) =
        found.map fun slot => names.map (Function.update slot name (some value)) := by
  by_cases h : ∃ front back, named? before = some front ∧ named? after = some back ∧
      OnceEach names (front ++ back)
  · obtain ⟨front, back, hfront, hback, honce⟩ := h
    have hplain : named? (before ++ after) = some (front ++ back) := by
      simp [named?_append, hfront, hback]
    have hmore : ∀ value, named? (before ++ (some name, value) :: after) =
        some (front ++ (name, value) :: back) := by
      simp [named?_append, named?, hfront, hback]
    have hkeys : name ∉ Keyed.keys (front ++ back) := by
      simpa [map_fst_of_named? hplain] using hnew
    refine ⟨some fun key => (front ++ back).lookup key, ?_, record?_object hplain honce,
      fun value => ?_⟩
    · rintro slot ⟨⟩
      exact Keyed.lookup_eq_none_iff.2 hkeys
    · rw [record?_object (hmore value) ((onceEach_insert_iff hname).2 ⟨hkeys, honce⟩),
        Option.map_some, ← lookup_insert hkeys value]
  · refine ⟨none, by simp, record?_object_eq_none fun found hfound honce => h ?_,
      fun value => record?_object_eq_none fun found hfound honce => h ?_⟩
    · simp only [named?_append, Option.bind_eq_some_iff, Option.map_eq_some_iff] at hfound
      obtain ⟨front, hfront, back, hback, rfl⟩ := hfound
      exact ⟨front, back, hfront, hback, honce⟩
    · obtain ⟨front, back, hfront, hback, rfl⟩ := exists_of_named?_insert hfound
      exact ⟨front, back, hfront, hback, ((onceEach_insert_iff hname).1 honce).2⟩

theorem record?_insert_eq_none {names : List String} {name : String} (hname : name ∈ names)
    {before after : List (Option String × Form)} (hold : some name ∈ (before ++ after).map Prod.fst)
    (value : Form) : record? names (.object (before ++ (some name, value) :: after)) = none := by
  refine record?_object_eq_none fun found hfound honce => ?_
  obtain ⟨front, back, hfront, hback, rfl⟩ := exists_of_named?_insert hfound
  have hplain : named? (before ++ after) = some (front ++ back) := by
    simp [named?_append, hfront, hback]
  rw [map_fst_of_named? hplain] at hold
  exact ((onceEach_insert_iff hname).1 honce).1 (by simpa using hold)

/-- A change in what stands under one name of a record, or in its place. -/
inductive InMember (names : List String) (name : String) (Step : Form → Form → Prop) :
    Form → Form → Prop
  | named (before after : List (Option String × Form)) {old new : Form} (h : Step old new) :
    InMember names name Step (.object (before ++ (some name, old) :: after))
      (.object (before ++ (some name, new) :: after))
  | placed (before after : List Form) {old new : Form} (hplace : names[before.length]? = some name)
    (h : Step old new) :
    InMember names name Step (.array (before ++ old :: after)) (.array (before ++ new :: after))

theorem record?_array {names : List String} (hnames : names.Nodup) {items : List Form}
    (hlength : items.length ≤ names.length) :
    record? names (.array items) = some (names.map fun name => items[names.idxOf name]?) := by
  simp only [record?, hlength, if_true, Option.some.injEq]
  refine List.ext_getElem (by simp; omega) fun i hi hi' => ?_
  simp only [List.getElem_map, hnames.idxOf_getElem, List.getElem_append]
  split
  · next h => simp at h; simp [h]
  · next h => simp at h; simp [h]

/-- Another value under one name: nothing else changes in what is found. -/
theorem record?_inMember {names : List String} (hnames : names.Nodup) {name : String}
    (hname : name ∈ names) {Step : Form → Form → Prop} {value other : Form}
    (h : InMember names name Step value other) :
    ∃ (found : Option (String → Option Form)) (old new : Form), Step old new ∧
      record? names value = found.map (fun slot => names.map (Function.update slot name (some old))) ∧
      record? names other =
        found.map fun slot => names.map (Function.update slot name (some new)) := by
  cases h with
  | @named before after old new h =>
    by_cases hnew : some name ∉ (before ++ after).map Prod.fst
    · obtain ⟨found, -, -, hfound⟩ := record?_insert hname hnew
      exact ⟨found, old, new, h, hfound old, hfound new⟩
    · rw [not_not] at hnew
      exact ⟨none, old, new, h, record?_insert_eq_none hname hnew old,
        record?_insert_eq_none hname hnew new⟩
  | @placed before after old new hplace h =>
    by_cases hlength : (before ++ old :: after).length ≤ names.length
    · obtain ⟨hbound, hat⟩ := List.getElem?_eq_some_iff.1 hplace
      have hindex : names.idxOf name = before.length := by rw [← hat, hnames.idxOf_getElem]
      have hplaced : ∀ item, record? names (.array (before ++ item :: after)) =
          some (names.map (Function.update (fun key => (before ++ old :: after)[names.idxOf key]?)
            name (some item))) := by
        intro item
        rw [record?_array hnames (by simpa using hlength)]
        refine congrArg some (List.map_congr_left fun key hkey => ?_)
        by_cases hsame : key = name
        · simp [hsame, hindex]
        · have hne : names.idxOf key ≠ before.length := by
            rw [← hindex]
            exact fun h => hsame (List.idxOf_inj hkey |>.1 h)
          have hset : before ++ item :: after = (before ++ old :: after).set before.length item := by
            simp
          rw [Function.update_of_ne hsame, hset, List.getElem?_set_ne hne.symm]
      exact ⟨some _, old, new, h, hplaced old, hplaced new⟩
    · refine ⟨none, old, new, h, ?_, ?_⟩
      · simp only [record?, if_neg hlength, Option.map_none]
      · rw [List.length_append, List.length_cons] at hlength
        simp only [record?, List.length_append, List.length_cons, if_neg hlength, Option.map_none]

/-- A record written with some of its members, each once. -/
theorem record?_memberForms {names : List String} {members : List (String × Json)}
    (h : Keyed.Distinct members) : record? names (.object (Json.memberForms members)) =
      some (names.map fun name => (members.lookup name).map Json.form) := by
  have hdistinct : Keyed.Distinct (members.map fun (name, value) => (name, value.form)) := by
    simpa [Keyed.Distinct, Keyed.keys, Function.comp_def] using h
  rw [record?_object (named?_memberForms members) (.of_distinct hdistinct)]
  simp only [Keyed.lookup_map_value fun _ => Json.form]

theorem map_lookup_zip {α : Type} {names : List String} (hnames : names.Nodup) {values : List α}
    (hlength : names.length = values.length) :
    (names.map fun name => (names.zip values).lookup name) = values.map some := by
  induction names generalizing values with
  | nil => simp [List.length_eq_zero_iff.1 hlength.symm]
  | cons name names ih =>
    obtain ⟨value, values, rfl⟩ := List.exists_cons_of_length_eq_add_one hlength.symm
    obtain ⟨hname, hnames⟩ := List.nodup_cons.1 hnames
    rw [List.map_cons, List.zip_cons_cons, List.lookup_cons_self, List.map_cons,
      ← ih hnames (Nat.succ.inj hlength)]
    refine congrArg (some value :: ·) (List.map_congr_left fun key hkey => ?_)
    have hne : key ≠ name := fun h => hname (h ▸ hkey)
    rw [List.lookup_cons, beq_false_of_ne hne]

/-- A record written with all its members in their order. -/
theorem record?_zip {names : List String} (hnames : names.Nodup) {values : List Json}
    (hlength : names.length = values.length) :
    record? names (.object (Json.memberForms (names.zip values))) =
      some (values.map fun value => some value.form) := by
  have hkeys : Keyed.Distinct (names.zip values) := by
    rwa [Keyed.Distinct, Keyed.keys, List.map_fst_zip (Nat.le_of_eq hlength)]
  have hlookup := congrArg (List.map fun value : Option Json => value.map Json.form)
    (map_lookup_zip hnames hlength)
  rw [record?_memberForms hkeys]
  simpa [Function.comp_def] using hlookup

/-! ### Maps -/

/-- A change in what stands under a key of a map. -/
inductive InMap (Step : Form → Form → Prop) : Form → Form → Prop
  | intro (before after : List (Option String × Form)) {key : Option String} {old new : Form}
    (h : Step old new) :
    InMap Step (.object (before ++ (key, old) :: after)) (.object (before ++ (key, new) :: after))

theorem map?_inMap {α : Type} {read : Form → Option α} {Step : Form → Form → Prop}
    (hstep : ∀ old new, Step old new → read old = read new) {value other : Form}
    (h : InMap Step value other) : map? read value = map? read other := by
  obtain @⟨before, after, key, old, new, h⟩ := h
  have hread := hstep old new h
  cases key with
  | none => simp [map?, named?_append, named?]
  | some key =>
    simp only [map?, named?_append, named?, Option.bind_eq_bind, Option.bind_some]
    cases named? before with
    | none => rfl
    | some front =>
      cases named? after with
      | none => rfl
      | some back => simp [hread]

theorem mapM_map_eq_some {α β : Type} {read : β → Option α} {write : α → β} {values : List α}
    (hread : ∀ value ∈ values, read (write value) = some value) :
    (values.map write).mapM read = some values := by
  induction values with
  | nil => rfl
  | cons value values ih =>
    obtain ⟨hvalue, hvalues⟩ := List.forall_mem_cons.1 hread
    simp [List.mapM_cons, hvalue, ih hvalues]

theorem map?_memberForms {α : Type} {read : Form → Option α} {write : α → Json}
    {pairs : List (String × α)} (hpairs : Keyed.Distinct pairs)
    (hread : ∀ pair ∈ pairs, read (write pair.2).form = some pair.2) :
    map? read (.object (Json.memberForms (pairs.map fun (key, value) => (key, write value)))) =
      some pairs := by
  have hvalues : (pairs.map fun pair => (pair.1, (write pair.2).form)).mapM
      (fun member => (read member.2).map fun value => (member.1, value)) = some pairs :=
    mapM_map_eq_some fun pair hpair => by simp [hread pair hpair]
  simp only [map?, named?_memberForms, List.map_map, Option.bind_eq_bind, Option.bind_some]
  simp [Function.comp_def, hvalues, Keyed.ofList_of_distinct hpairs]

theorem itemForms_eq_map (items : List Json) : Json.itemForms items = items.map Json.form := by
  induction items with
  | nil => rfl
  | cons item items ih => simp [Json.itemForms, ih]

theorem list?_itemForms {α : Type} {read : Form → Option α} {write : α → Json} {values : List α}
    (hread : ∀ value ∈ values, read (write value).form = some value) :
    list? read (.array (Json.itemForms (values.map write))) = some values := by
  rw [itemForms_eq_map, List.map_map, list?]
  exact mapM_map_eq_some hread

end DocQuery.Catalog
