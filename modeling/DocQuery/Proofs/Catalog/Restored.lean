import DocQuery.Proofs.Catalog.Defaults
import DocQuery.Proofs.Json.Written

/-!
# Catalogs written and read again

A catalog is read from its text as it was (`read_text`): each record is written with all its
members, except for the one of a reference in a field that is none, and each member is read as what
was written. Together with the members that may be left out this is `read_text_and_filledIn`.
-/

namespace DocQuery.Catalog

/-- No collection stands twice in a catalog, and no path twice in a collection. -/
structure WellKeyed (catalog : Catalog) : Prop where
  collections : Keyed.Distinct catalog
  fields : ∀ pair ∈ catalog, Keyed.Distinct pair.2.fields

/-! ### Only words are written -/

theorem wordsOnly_textOrNull (s : Option String) : (textOrNull s).WordsOnly := by
  cases s <;> trivial

theorem wordsOnly_strings (texts : List String) : (Json.array (texts.map .string)).WordsOnly := by
  refine Json.wordsOnlyItems_iff.2 fun item hitem => ?_
  obtain ⟨s, -, rfl⟩ := List.mem_map.1 hitem
  trivial

theorem wordsOnly_fieldInfoJson (info : FieldInfo) : (fieldInfoJson info).WordsOnly := by
  obtain ⟨kind, target, many⟩ := info
  cases target <;> exact Json.wordsOnlyMembers_iff.2 (by simp [Json.WordsOnly])

theorem wordsOnly_optionsJson (o : Options) : (optionsJson o).WordsOnly := by
  have hlimit : (Json.whole o.defaultLimit.toNat).WordsOnly := by
    have hbound := o.defaultLimit.toNat_lt
    have hsize : Json.greatestWord = 2 ^ 64 - 1 ∧ twoTo 63 = 2 ^ 63 := ⟨rfl, rfl⟩
    constructor <;> omega
  refine Json.wordsOnlyMembers_iff.2 fun member hmember => ?_
  have hvalue := (List.of_mem_zip hmember).2
  revert hvalue
  generalize member.2 = value
  revert value
  simp only [List.forall_mem_cons]
  refine ⟨wordsOnly_textOrNull _, wordsOnly_textOrNull _, wordsOnly_textOrNull _, hlimit,
    wordsOnly_textOrNull _, wordsOnly_strings _, ?_⟩
  -- the rest are texts
  simp [Json.WordsOnly]

theorem wordsOnly_collectionJson (c : Collection) : (collectionJson c).WordsOnly := by
  refine ⟨Json.wordsOnlyMembers_iff.2 fun member hmember => ?_, wordsOnly_strings c.textIndex,
    wordsOnly_optionsJson c.options, trivial⟩
  obtain ⟨pair, -, rfl⟩ := List.mem_map.1 hmember
  exact wordsOnly_fieldInfoJson pair.2

theorem wordsOnly_toJson (catalog : Catalog) : (toJson catalog).WordsOnly := by
  refine Json.wordsOnlyMembers_iff.2 fun member hmember => ?_
  obtain ⟨pair, -, rfl⟩ := List.mem_map.1 hmember
  exact wordsOnly_collectionJson pair.2

/-! ### What is written is read -/

theorem nullable?_textOrNull (s : Option String) : nullable? string? (textOrNull s).form = some s := by
  cases s <;> rfl

theorem kind?_kindName (kind : FieldKind) : kind? (Json.string (kindName kind)).form = some kind := by
  cases kind <;> rfl

theorem pagination?_paginationName (pagination : Pagination) :
    pagination? (Json.string (paginationName pagination)).form = some pagination := by
  cases pagination <;> rfl

theorem word?_whole (n : UInt64) : word? (Json.whole n.toNat).form = some n := by
  simp [Json.form, word?]

theorem list?_strings (texts : List String) :
    list? string? (Json.array (texts.map .string)).form = some texts :=
  list?_itemForms fun _ _ => rfl

theorem string?_string (s : String) : string? (Json.string s).form = some s := rfl

theorem nullable?_string (s : String) : nullable? string? (Json.string s).form = some (some s) := rfl

theorem bool?_bool (b : Bool) : bool? (Json.bool b).form = some b := rfl

/-- A field is read from its record. Without a reference there is no member for one, and the default
is read. -/
theorem fieldInfo?_fieldInfoJson (info : FieldInfo) :
    fieldInfo? (fieldInfoJson info).form = some info := by
  obtain ⟨kind, target, many⟩ := info
  have hdistinct : Keyed.Distinct (("type", Json.string (kindName kind)) ::
      (target.toList.map fun target => ("ref", Json.string target)) ++ [("array", .bool many)]) := by
    cases target <;> simp [Keyed.Distinct, Keyed.keys]
  rw [fieldInfo?, fieldInfoJson, Json.form, record?_memberForms hdistinct]
  cases target <;> simp [List.lookup_cons, orElse, kind?_kindName, nullable?_string, bool?_bool]

theorem options?_optionsJson (o : Options) : options? (optionsJson o).form = some o := by
  rw [options?, optionsJson, Json.form, record?_zip (by decide) rfl, Option.bind_eq_bind,
    Option.bind_some]
  simp only [List.map_cons, List.map_nil, orElse, nullable?_textOrNull, pagination?_paginationName,
    word?_whole, list?_strings, string?_string]
  rfl

theorem collection?_collectionJson {c : Collection} (h : Keyed.Distinct c.fields) :
    collection? (collectionJson c).form = some c := by
  have hfields : map? fieldInfo?
      (Json.object (c.fields.map fun field => (field.1, fieldInfoJson field.2))).form =
        some c.fields := map?_memberForms h fun field _ => fieldInfo?_fieldInfoJson field.2
  rw [collection?, collectionJson, Json.form, record?_memberForms (by simp [Keyed.Distinct, Keyed.keys])]
  simp [List.lookup_cons, orElse, hfields, list?_strings, options?_optionsJson]

theorem ofJson?_toJson {catalog : Catalog} (h : WellKeyed catalog) :
    ofJson? (toJson catalog) = some catalog :=
  map?_memberForms h.collections fun pair hpair => collection?_collectionJson (h.fields pair hpair)

/-- A catalog is read from its text as it was. -/
theorem read_text {catalog : Catalog} (h : WellKeyed catalog) : read (text catalog) = some catalog := by
  rw [read, text, Json.readForm_compact (wordsOnly_toJson catalog)]
  exact ofJson?_toJson h

/-- A catalog survives being written, and it does not matter which members with a default are left
out of its text. -/
theorem read_text_and_filledIn :
    (∀ catalog, WellKeyed catalog → read (text catalog) = some catalog) ∧
      ∀ s t value other, Json.readForm s = some value → Json.readForm t = some other →
        FilledIn value other → read s = read t :=
  ⟨fun _ h => read_text h, fun _ _ _ _ hs ht h => read_filledIn hs ht h⟩

namespace PersonsWithFriends

/-- A collection with a reference, and with some of its options changed. -/
def catalog : Catalog :=
  [("persons", {
    fields := [("name", ⟨.string, none, false⟩), ("friends", ⟨.objectId, some "persons", true⟩)]
    textIndex := ["name"]
    options := { Options.standard with
      defaultFields := none, defaultLimit := 18446744073709551615, pagination := .legacy } })]

/-- The record of a field that names its kind, and the same with a default written out. -/
def briefField : Json := .object [("type", .string "string")]

def fullField : Json := .object [("array", .bool false), ("type", .string "string")]

/-- A collection with one field, without and with options. -/
def persons (field : Json) : Json := .object [("fields", .object [("name", field)])]

def personsWith (options : Json) : Json :=
  .object [("options", options), ("fields", .object [("name", fullField)])]

/-- A catalog that names the kind of one field and nothing else, and one with three defaults
written out. -/
def brief : Json := .object [("persons", persons briefField)]

def full : Json := .object [("persons", personsWith (.object [("default_limit", .whole 20)]))]

theorem brief_filledIn_full : FilledIn brief.form full.form := by
  have harray : Added fieldDefaults briefField.form fullField.form :=
    .intro [] [(some "type", (Json.string "string").form)] rfl (by simp)
  have hfield : CollectionStep (persons briefField).form (persons fullField).form :=
    .field (.named [] [] (.intro [] [] harray))
  have hoptions : CollectionStep (persons fullField).form (personsWith (.object [])).form :=
    .collection (.intro [] [(some "fields", (Json.object [("name", fullField)]).form)] rfl (by simp))
  have hlimit : CollectionStep (personsWith (.object [])).form
      (personsWith (.object [("default_limit", .whole 20)])).form :=
    .options (.named [] [(some "fields", (Json.object [("name", fullField)]).form)]
      (.intro [] [] rfl (by simp)))
  exact .tail (.tail (.single (.intro [] [] hfield)) (.intro [] [] hoptions)) (.intro [] [] hlimit)

theorem catalog_restored_and_defaults_read :
    read (text catalog) = some catalog ∧ read brief.compact = read full.compact := by
  have hcatalog : WellKeyed catalog :=
    ⟨by simp [catalog, Keyed.Distinct, Keyed.keys], by simp [catalog, Keyed.Distinct, Keyed.keys]⟩
  have hbrief : brief.WordsOnly := by
    simp [brief, persons, briefField, Json.WordsOnly, Json.WordsOnlyMembers]
  have hfull : full.WordsOnly := by
    simp [full, personsWith, fullField, Json.WordsOnly, Json.WordsOnlyMembers, Json.IsWord,
      Json.greatestWord, twoTo]
  exact ⟨read_text_and_filledIn.1 catalog hcatalog,
    read_text_and_filledIn.2 _ _ _ _ (Json.readForm_compact hbrief) (Json.readForm_compact hfull)
      brief_filledIn_full⟩

end PersonsWithFriends

end DocQuery.Catalog
