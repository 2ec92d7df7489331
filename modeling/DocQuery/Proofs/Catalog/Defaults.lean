import DocQuery.Proofs.Catalog.Records
import Mathlib.Logic.Relation

/-!
# Members that may be left out

Each record of a catalog has members that may be left out, with the values that they have then. One
of them written out, in a record anywhere in the catalog and at any place of it, is one step
(`SpelledOut`); the catalog stays the same by each step (`ofForm?_spelledOut`), and so by any number
of them (`ofForm?_filledIn`).
-/

namespace DocQuery.Catalog

open Json (Form)

/-! ### One member more -/

/-- A record with one more member, which has its default; the record did not name it. -/
inductive Added (defaults : List (String × Json)) : Form → Form → Prop
  | intro (before after : List (Option String × Form)) {name : String} {value : Json}
    (hdefault : defaults.lookup name = some value) (hnew : some name ∉ (before ++ after).map Prod.fst) :
    Added defaults (.object (before ++ after))
      (.object (before ++ (some name, value.form) :: after))

theorem record?_added (names : List String) {defaults : List (String × Json)}
    (hnames : ∀ pair ∈ defaults, pair.1 ∈ names) {value other : Form}
    (h : Added defaults value other) :
    ∃ (found : Option (String → Option Form)) (name : String) (fallback : Json),
      defaults.lookup name = some fallback ∧ (∀ slot ∈ found, slot name = none) ∧
      record? names value = found.map names.map ∧
      record? names other =
        found.map fun slot => names.map (Function.update slot name (some fallback.form)) := by
  obtain @⟨before, after, name, fallback, hdefault, hnew⟩ := h
  obtain ⟨found, hslot, hvalue, hother⟩ :=
    record?_insert (hnames _ (Keyed.mem_of_lookup hdefault)) hnew
  exact ⟨found, name, fallback, hdefault, hslot, hvalue, hother fallback.form⟩

section Slots

variable {α : Type} {read : Form → Option α} {fallback : α} {slot : String → Option Form}
  {name key : String}

/-- A member read with the default that it has if it is left out. -/
theorem orElse_added {defaults : List (String × Json)} {value : Json}
    (hdefault : defaults.lookup name = some value) (hslot : slot name = none)
    (hread : (defaults.lookup key).bind (fun value => read value.form) = some fallback) :
    orElse read fallback (Function.update slot name (some value.form) key) =
      orElse read fallback (slot key) := by
  by_cases hkey : key = name
  · subst hkey
    rw [hdefault] at hread
    rw [Function.update_self, hslot]
    exact hread
  · rw [Function.update_of_ne hkey]

theorem orElse_changed {old new : Form} (hread : key = name → read old = read new) :
    orElse read fallback (Function.update slot name (some old) key) =
      orElse read fallback (Function.update slot name (some new) key) := by
  by_cases hkey : key = name
  · subst hkey
    rw [Function.update_self, Function.update_self]
    exact hread rfl
  · rw [Function.update_of_ne hkey, Function.update_of_ne hkey]

end Slots

/-! ### Fields -/

def fieldNames : List String := ["type", "ref", "array"]

/-- What may be left out of a field's record: it is no reference and holds no array. -/
def fieldDefaults : List (String × Json) := [("ref", .null), ("array", .bool false)]

theorem fieldInfo?_added {value other : Form} (h : Added fieldDefaults value other) :
    fieldInfo? value = fieldInfo? other := by
  obtain ⟨found, name, fallback, hdefault, hslot, hvalue, hother⟩ :=
    record?_added fieldNames (by decide) h
  simp only [fieldNames] at hvalue hother
  cases found with
  | none => simp only [fieldInfo?, hvalue, hother, Option.map_none]
  | some slot =>
    have hkind : "type" ≠ name := by
      rintro rfl
      cases hdefault
    simp only [fieldInfo?, hvalue, hother, Option.map_some, List.map_cons, List.map_nil,
      Option.bind_eq_bind, Option.bind_some, Function.update_of_ne hkind]
    cases slot "type" with
    | none => rfl
    | some kind =>
      dsimp only
      repeat rw [orElse_added hdefault (hslot slot rfl)]
      all_goals rfl

/-! ### Options -/

/-- What may be left out of the options: all of them. -/
def optionDefaults : List (String × Json) :=
  [("protected_fields", .null), ("default_fields", .string "_id"), ("default_sort", .string "-_id"),
    ("default_limit", .whole 20), ("fields_for_default_query", .null),
    ("fields_for_default_search", .array []), ("pagination", .string "facet"),
    ("page_key", .string "$page"), ("limit_key", .string "$limit"),
    ("fields_key", .string "$fields"), ("sort_key", .string "$sort"), ("query_key", .string "$q"),
    ("search_key", .string "$search"), ("unwind_key", .string "$unwind"),
    ("all_fields_key", .string "$getAllFields")]

theorem options?_added {value other : Form} (h : Added optionDefaults value other) :
    options? value = options? other := by
  obtain ⟨found, name, fallback, hdefault, hslot, hvalue, hother⟩ :=
    record?_added optionNames (by decide) h
  cases found with
  | none => simp only [options?, hvalue, hother, Option.map_none]
  | some slot =>
    rw [options?, options?, hvalue, hother, Option.map_some, Option.map_some, Option.bind_eq_bind,
      Option.bind_some, Option.bind_eq_bind, Option.bind_some]
    simp only [optionNames, List.map_cons, List.map_nil]
    -- what is left are the written defaults, each of which is read as the default it stands for
    repeat rw [orElse_added hdefault (hslot slot rfl)]
    all_goals rfl

/-! ### Collections -/

def collectionNames : List String := ["fields", "text_index", "options"]

/-- What may be left out of a collection's record: all of it. -/
def collectionDefaults : List (String × Json) :=
  [("fields", .object []), ("text_index", .array []), ("options", .object [])]

theorem collection?_added {value other : Form} (h : Added collectionDefaults value other) :
    collection? value = collection? other := by
  obtain ⟨found, name, fallback, hdefault, hslot, hvalue, hother⟩ :=
    record?_added collectionNames (by decide) h
  simp only [collectionNames] at hvalue hother
  cases found with
  | none => simp only [collection?, hvalue, hother, Option.map_none]
  | some slot =>
    simp only [collection?, hvalue, hother, Option.map_some, List.map_cons, List.map_nil,
      Option.bind_eq_bind, Option.bind_some]
    repeat rw [orElse_added hdefault (hslot slot rfl)]
    all_goals rfl

/-- A member is changed into one that is read as the same. -/
theorem collection?_inMember {name : String} (hname : name ∈ collectionNames)
    {Step : Form → Form → Prop} {value other : Form}
    (h : InMember collectionNames name Step value other)
    (hfields : "fields" = name → ∀ old new, Step old new → map? fieldInfo? old = map? fieldInfo? new)
    (hindex : "text_index" = name → ∀ old new, Step old new → list? string? old = list? string? new)
    (hoptions : "options" = name → ∀ old new, Step old new → options? old = options? new) :
    collection? value = collection? other := by
  obtain ⟨found, old, new, hstep, hvalue, hother⟩ := record?_inMember (by decide) hname h
  simp only [collectionNames] at hvalue hother
  cases found with
  | none => simp only [collection?, hvalue, hother, Option.map_none]
  | some slot =>
    simp only [collection?, hvalue, hother, Option.map_some, List.map_cons, List.map_nil,
      Option.bind_eq_bind, Option.bind_some]
    rw [orElse_changed fun hkey => hfields hkey old new hstep,
      orElse_changed fun hkey => hindex hkey old new hstep,
      orElse_changed fun hkey => hoptions hkey old new hstep]

/-- One member written out in the record of a collection, in that of one of its fields, or in its
options. -/
inductive CollectionStep : Form → Form → Prop
  | collection {value other : Form} (h : Added collectionDefaults value other) :
    CollectionStep value other
  | field {value other : Form}
    (h : InMember collectionNames "fields" (InMap (Added fieldDefaults)) value other) :
    CollectionStep value other
  | options {value other : Form}
    (h : InMember collectionNames "options" (Added optionDefaults) value other) :
    CollectionStep value other

theorem collection?_step {value other : Form} (h : CollectionStep value other) :
    collection? value = collection? other := by
  cases h with
  | collection h => exact collection?_added h
  | field h =>
    exact collection?_inMember (by decide) h
      (fun _ _ _ hstep => map?_inMap (fun _ _ hadded => fieldInfo?_added hadded) hstep)
      (fun hkey => absurd hkey (by decide)) (fun hkey => absurd hkey (by decide))
  | options h =>
    exact collection?_inMember (by decide) h (fun hkey => absurd hkey (by decide))
      (fun hkey => absurd hkey (by decide)) (fun _ _ _ hstep => options?_added hstep)

/-! ### Catalogs -/

/-- One member that was left out somewhere in a catalog is written out. -/
def SpelledOut : Form → Form → Prop := InMap CollectionStep

/-- Members that were left out are written out, as many as one likes. -/
def FilledIn : Form → Form → Prop := Relation.ReflTransGen SpelledOut

theorem ofForm?_spelledOut {value other : Form} (h : SpelledOut value other) :
    ofForm? value = ofForm? other :=
  map?_inMap (fun _ _ hstep => collection?_step hstep) h

/-- The catalog does not depend on which members are left out. -/
theorem ofForm?_filledIn {value other : Form} (h : FilledIn value other) :
    ofForm? value = ofForm? other := by
  induction h with
  | refl => rfl
  | tail _ hstep ih => rw [ih, ofForm?_spelledOut hstep]

theorem read_filledIn {s t : String} {value other : Form} (hs : Json.readForm s = some value)
    (ht : Json.readForm t = some other) (h : FilledIn value other) : read s = read t := by
  rw [read, read, hs, ht, Option.bind_some, Option.bind_some, ofForm?_filledIn h]

end DocQuery.Catalog
