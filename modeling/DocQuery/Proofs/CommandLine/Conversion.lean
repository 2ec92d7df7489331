import DocQuery.Proofs.CommandLine.Loaded
import DocQuery.Proofs.Path.Filled
import DocQuery.Proofs.Path.Retold

/-!
# What loading changes

The declared fields are converted one after the other, in whatever order they come.  This is one pass
over the document (`CommandLine.convertDeclared_eq_retold`), in which a text becomes what `loadedAt`
says of its place.  So the order does not matter, converting twice is converting once, and nothing
changes but texts at the places that are declared.
-/

namespace DocQuery.CommandLine

open Value

variable {kind : FieldKind} {path : Path}

/-! ### One field -/

/-- What becomes of the texts if those at one place are converted. -/
def convertedAt (kind : FieldKind) (path : Path) : Retelling :=
  fun place s => if place = path then convertText kind (.string s) else .string s

theorem convertedAt_self (kind : FieldKind) (path : Path) (s : String) :
    convertedAt kind path path s = convertText kind (.string s) := if_pos rfl

theorem convertedAt_of_ne {place : Path} (h : place ≠ path) (s : String) :
    convertedAt kind path place s = .string s := if_neg h

/-- Behind the place nothing is converted. -/
theorem convertedAt_append {rest : Path} (h : rest ≠ []) (s : String) :
    convertedAt kind path (path ++ rest) s = .string s :=
  convertedAt_of_ne (by simpa using h) s

/-- At the place a value is converted as the loader does it. -/
theorem retold_convertedAt_self (kind : FieldKind) (path : Path) (value : Value) :
    value.retold (convertedAt kind path) path = convertValue kind value := by
  cases value with
  | string s => exact convertedAt_self kind path s
  | document fields =>
    rw [retold, retoldFields_of_string fun rest hrest s => convertedAt_append hrest s]
    rfl
  | array items =>
    rw [retold, convertValue]
    refine congrArg Value.array ?_
    induction items with
    | nil => rfl
    | cons item rest ih =>
      cases item with
      | document fields =>
        rw [retoldItems, retoldFields_of_string fun rest hrest s => convertedAt_append hrest s, ih]
        rfl
      | string s => rw [retoldItems, convertedAt_self, ih, List.map_cons]
      | _ => simp only [retoldItems, ih, List.map_cons, convertText]
  | _ => rfl

/-- What is filled in where a field is converted. -/
def conversion (kind : FieldKind) (value : Value) : Option Value := some (convertValue kind value)

mutual

theorem filled_conversion {place : Path} (hplace : place ≠ path) (value : Value) :
    value.filled (Path.onlyAt path (conversion kind)) place = value.retold (convertedAt kind path) place := by
  cases value with
  | string s => exact (convertedAt_of_ne hplace s).symm
  | document fields => rw [filled, retold, filledFields_conversion place fields]
  | array items => rw [filled, retold, filledItems_conversion hplace items]
  | _ => rfl

theorem filledFields_conversion (place : Path) (fields : List (String × Value)) :
    filledFields (Path.onlyAt path (conversion kind)) place fields =
      retoldFields (convertedAt kind path) place fields := by
  cases fields with
  | nil => rfl
  | cons field rest =>
    obtain ⟨key, value⟩ := field
    have hrest := filledFields_conversion place rest
    by_cases hplace : place ++ [key] = path
    · have hfill : Path.onlyAt path (conversion kind) (place ++ [key]) = some (conversion kind) :=
        if_pos hplace
      rw [filledFields, hfill, retoldFields, hrest, hplace, retold_convertedAt_self]
      rfl
    · rw [filledFields, Path.onlyAt_of_ne hplace, retoldFields, hrest]
      dsimp only
      rw [filled_conversion hplace value]

theorem filledItems_conversion {place : Path} (hplace : place ≠ path) (items : List Value) :
    filledItems (Path.onlyAt path (conversion kind)) place items =
      retoldItems (convertedAt kind path) place items := by
  cases items with
  | nil => rfl
  | cons item rest =>
    have hrest := filledItems_conversion hplace rest
    cases item with
    | document fields => rw [filledItems, retoldItems, filledFields_conversion place fields, hrest]
    | string s => rw [filledItems, retoldItems, convertedAt_of_ne hplace, hrest]; simp
    | _ => simp only [filledItems, retoldItems, hrest]

end

theorem convertAt_eq_retold (kind : FieldKind) (path : String) {doc : Document} (hdoc : doc.WellKeyed) :
    convertAt kind path doc = retoldFields (convertedAt kind (Path.ofText path)) [] doc := by
  have hfilled := Path.update_eq_filled (f := conversion kind) hdoc [] (Path.ofText_ne_nil path)
  rw [List.nil_append, filledFields_conversion] at hfilled
  exact hfilled

theorem wellKeyed_convertText (kind : FieldKind) {value : Value} (h : value.WellKeyed) :
    (convertText kind value).WellKeyed := by
  cases value with
  | string s =>
    obtain ⟨_, hwritten⟩ := isWritten_convertText kind (.string s)
    generalize convertText kind (.string s) = new at hwritten ⊢
    cases hwritten <;> simp only [Value.WellKeyed]
  | _ => exact h

theorem wellKeyed_convertAt (kind : FieldKind) (path : String) {doc : Document} (hdoc : doc.WellKeyed) :
    (convertAt kind path doc).WellKeyed := by
  refine Path.wellKeyed_update _ (fun value new hvalue hnew => ?_) hdoc
  cases hnew
  cases value with
  | array items =>
    refine Value.wellKeyed_array_iff.2 (List.forall_mem_map.2 fun item hitem => ?_)
    exact wellKeyed_convertText kind (Value.wellKeyed_array_iff.1 hvalue item hitem)
  | _ => exact wellKeyed_convertText kind hvalue

/-! ### All declared fields -/

/-- What becomes of a text at a place where something is declared. -/
def declaredAt (fields : List (String × FieldInfo)) : Retelling := fun place s =>
  if Path.ofText (Path.text place) = place then declaredText (fields.lookup (Path.text place)) s
  else .string s

/-- What becomes of a text at a place in a document of a collection.  A place with a point in one of
its keys is at no path. -/
def loadedAt (collection : Collection) : Retelling := fun place s =>
  if Path.ofText (Path.text place) = place then loadedText collection (Path.text place) s
  else .string s

theorem isScalar_declaredAt (fields : List (String × FieldInfo)) (place : Path) (s : String) :
    (declaredAt fields place s).IsScalar := by
  unfold declaredAt
  split
  · exact (isWritten_declaredText _ s).isScalar
  · trivial

theorem declaredAt_ofText (fields : List (String × FieldInfo)) (path s : String) :
    declaredAt fields (Path.ofText path) s = declaredText (fields.lookup path) s := by
  rw [declaredAt, Path.text_ofText, if_pos rfl]

theorem declaredAt_of_notMem {fields : List (String × FieldInfo)} {place : Path}
    (h : ∀ field ∈ fields, Path.ofText field.1 ≠ place) (s : String) :
    declaredAt fields place s = .string s := by
  unfold declaredAt
  split
  · next hplace =>
    have hnone : fields.lookup (Path.text place) = none := by
      rw [Keyed.lookup_eq_none_iff]
      intro hmem
      obtain ⟨field, hfield, hkey⟩ := List.mem_map.1 hmem
      exact h field hfield (hkey ▸ hplace)
    rw [hnone]
    rfl
  · rfl

theorem declaredAt_cons_of_ne {field : String × FieldInfo} {place : Path}
    (h : Path.ofText field.1 ≠ place) (rest : List (String × FieldInfo)) (s : String) :
    declaredAt (field :: rest) place s = declaredAt rest place s := by
  unfold declaredAt
  split
  · next hplace =>
    have hne : Path.text place ≠ field.1 := by
      rintro hkey
      exact h (hkey ▸ hplace)
    rw [List.lookup_cons, beq_false_of_ne hne]
  · rfl

/-- One field is converted as if it were the only one that is declared. -/
theorem convertField_eq_retold (field : String × FieldInfo) {doc : Document} (hdoc : doc.WellKeyed) :
    convertField doc field = retoldFields (declaredAt [field]) [] doc := by
  obtain ⟨key, info⟩ := field
  have hself : ∀ s, declaredAt [(key, info)] (Path.ofText key) s = declaredText (some info) s := by
    intro s
    rw [declaredAt_ofText, List.lookup_cons_self]
  have hother : ∀ place s, Path.ofText key ≠ place → declaredAt [(key, info)] place s = .string s :=
    fun place s hne => declaredAt_of_notMem (by simpa using hne) s
  by_cases hkind : isConverted info.kind = true
  · have hconverted : declaredAt [(key, info)] = convertedAt info.kind (Path.ofText key) := by
      funext place s
      by_cases hplace : Path.ofText key = place
      · rw [← hplace, hself, convertedAt_self, declaredText, if_pos hkind]
      · rw [hother place s hplace, convertedAt_of_ne (Ne.symm hplace)]
    rw [convertField, if_pos hkind, convertAt_eq_retold _ _ hdoc, hconverted]
  · have hstays : ∀ path, path ≠ [] → ∀ s, declaredAt [(key, info)] ([] ++ path) s = .string s := by
      intro path _ s
      rw [List.nil_append]
      by_cases hplace : Path.ofText key = path
      · rw [← hplace, hself, declaredText, if_neg hkind]
      · exact hother path s hplace
    rw [convertField, if_neg hkind, retoldFields_of_string hstays]

theorem wellKeyed_convertField (field : String × FieldInfo) {doc : Document} (hdoc : doc.WellKeyed) :
    (convertField doc field).WellKeyed := by
  unfold convertField
  split
  · exact wellKeyed_convertAt _ _ hdoc
  · exact hdoc

theorem wellKeyed_foldl_convertField (fields : List (String × FieldInfo)) {doc : Document}
    (hdoc : doc.WellKeyed) : (fields.foldl convertField doc).WellKeyed := by
  induction fields generalizing doc with
  | nil => exact hdoc
  | cons field rest ih => exact ih (wellKeyed_convertField field hdoc)

/-- After a field, the rest of the declarations does not change what it was declared for. -/
theorem retold_declaredAt {field : String × FieldInfo} {rest : List (String × FieldInfo)}
    (hnew : field.1 ∉ Keyed.keys rest) (place : Path) (s : String) :
    (declaredAt [field] place s).retold (declaredAt rest) place = declaredAt (field :: rest) place s := by
  by_cases hplace : Path.ofText field.1 = place
  · have hstays : ∀ s, declaredAt rest place s = .string s := by
      refine declaredAt_of_notMem fun other hother h => hnew ?_
      rw [← Path.ofText_injective (h.trans hplace.symm)]
      exact List.mem_map_of_mem hother
    rw [retold_of_isScalar (isScalar_declaredAt _ _ _) hstays, ← hplace, declaredAt_ofText,
      declaredAt_ofText, List.lookup_cons_self, List.lookup_cons_self]
  · have hstays : declaredAt [field] place s = .string s :=
      declaredAt_of_notMem (by simpa using hplace) s
    rw [hstays, declaredAt_cons_of_ne hplace]
    rfl

/-- The fields are converted in one pass. -/
theorem foldl_convertField_eq_retold {fields : List (String × FieldInfo)}
    (hfields : Keyed.Distinct fields) {doc : Document} (hdoc : doc.WellKeyed) :
    fields.foldl convertField doc = retoldFields (declaredAt fields) [] doc := by
  induction fields generalizing doc with
  | nil =>
    exact (retoldFields_of_string (fun path _ s => declaredAt_of_notMem (by simp) s) doc).symm
  | cons field rest ih =>
    obtain ⟨hnew, hrest⟩ := List.nodup_cons.1 hfields
    rw [List.foldl_cons, ih hrest (wellKeyed_convertField field hdoc),
      convertField_eq_retold field hdoc, retoldFields_retoldFields (isScalar_declaredAt _)]
    congr 1
    funext place s
    exact retold_declaredAt hnew place s

/-! ### The whole of a document -/

theorem loadedAt_eq_retold (collection : Collection) (place : Path) (s : String) :
    loadedAt collection place s =
      (declaredAt collection.fields place s).retold (convertedAt .objectId (Path.ofText "_id")) place := by
  have hscalar := isScalar_declaredAt collection.fields place s
  by_cases hid : place = Path.ofText "_id"
  · subst hid
    rw [retold_convertedAt_self, convertValue_of_isScalar hscalar, declaredAt_ofText, loadedAt,
      Path.text_ofText, if_pos rfl, loadedText, if_pos rfl]
  · rw [retold_of_isScalar hscalar (convertedAt_of_ne hid), loadedAt, declaredAt]
    split
    · next hplace =>
      have hne : Path.text place ≠ "_id" := fun h => hid (h ▸ hplace.symm)
      rw [loadedText, if_neg hne]
    · rfl

/-- **The loader goes through a document once.** -/
theorem convertDeclared_eq_retold {collection : Collection} (hfields : Keyed.Distinct collection.fields)
    {doc : Document} (hdoc : doc.WellKeyed) :
    convertDeclared collection doc = retoldFields (loadedAt collection) [] doc := by
  rw [convertDeclared_eq, convertAt_eq_retold _ _ (wellKeyed_foldl_convertField _ hdoc),
    foldl_convertField_eq_retold hfields hdoc, retoldFields_retoldFields (isScalar_declaredAt _)]
  congr 1
  funext place s
  exact (loadedAt_eq_retold collection place s).symm

theorem wellKeyed_convertDeclared (collection : Collection) {doc : Document} (hdoc : doc.WellKeyed) :
    (convertDeclared collection doc).WellKeyed := by
  rw [convertDeclared_eq]
  exact wellKeyed_convertAt _ _ (wellKeyed_foldl_convertField _ hdoc)

/-! ### What a text becomes -/

/-- The kinds that texts at a place are converted to: a declared one, if it is one of those that are
written as text, and at `_id` always an object id. -/
inductive ConvertsTo (collection : Collection) : Path → FieldKind → Prop
  | declared {path : String} {info : FieldInfo} (hfield : (path, info) ∈ collection.fields)
    (hkind : isConverted info.kind = true) : ConvertsTo collection (Path.ofText path) info.kind
  | id : ConvertsTo collection (Path.ofText "_id") .objectId

theorem isConverted_of_convertsTo {collection : Collection} {place : Path}
    (h : ConvertsTo collection place kind) : isConverted kind = true := by
  cases h with
  | declared _ hkind => exact hkind
  | id => rfl

/-- An id or a date is no text, so it is not converted again. -/
theorem retold_of_coerce {s : String} {value : Value} (hkind : isConverted kind = true)
    (h : kind.coerce? s = some value) (change : Retelling) (place : Path) :
    value.retold change place = value := by
  cases FieldKind.writes_of_coerce h with
  | objectId id => rfl
  | date t => rfl
  | _ => cases hkind

theorem convertText_of_coerce {s : String} {value : Value} (hkind : isConverted kind = true)
    (h : kind.coerce? s = some value) (other : FieldKind) : convertText other value = value := by
  cases FieldKind.writes_of_coerce h with
  | objectId id => rfl
  | date t => rfl
  | _ => cases hkind

/-- What becomes of a text in a document: the value of a kind that texts at its place are converted
to, or the text itself if it writes none of these. -/
def IsLoaded (collection : Collection) (place : Path) (s : String) (value : Value) : Prop :=
  (∃ kind, ConvertsTo collection place kind ∧ kind.coerce? s = some value) ∨
    value = .string s ∧ ∀ kind, ConvertsTo collection place kind → kind.coerce? s = none

theorem convertsTo_ofText_iff {collection : Collection} {path : String} :
    ConvertsTo collection (Path.ofText path) kind ↔
      (∃ info, (path, info) ∈ collection.fields ∧ isConverted info.kind = true ∧ info.kind = kind) ∨
        path = "_id" ∧ kind = .objectId := by
  constructor
  · intro h
    generalize hplace : Path.ofText path = place at h
    cases h with
    | declared hfield hkind =>
      obtain rfl := Path.ofText_injective hplace
      exact .inl ⟨_, hfield, hkind, rfl⟩
    | id => exact .inr ⟨Path.ofText_injective hplace, rfl⟩
  · rintro (⟨info, hfield, hkind, rfl⟩ | ⟨rfl, rfl⟩)
    · exact .declared hfield hkind
    · exact .id

/-- A text under a declaration is read as the declared kind, if that is one of those that are
converted. -/
theorem declaredText_lookup {fields : List (String × FieldInfo)} (hfields : Keyed.Distinct fields)
    (path s : String) :
    (∃ info, (path, info) ∈ fields ∧ isConverted info.kind = true ∧
        info.kind.coerce? s = some (declaredText (fields.lookup path) s)) ∨
      declaredText (fields.lookup path) s = .string s ∧
        ∀ info, (path, info) ∈ fields → isConverted info.kind = true → info.kind.coerce? s = none := by
  cases hlookup : fields.lookup path with
  | none =>
    refine .inr ⟨rfl, fun info hinfo => ?_⟩
    rw [Keyed.lookup_of_mem hfields hinfo] at hlookup
    cases hlookup
  | some info =>
    have honly : ∀ other, (path, other) ∈ fields → other = info := by
      intro other hother
      rw [Keyed.lookup_of_mem hfields hother] at hlookup
      exact Option.some.inj hlookup
    by_cases hkind : isConverted info.kind = true
    · rw [declaredText, if_pos hkind, convertText_string]
      cases hcoerce : info.kind.coerce? s with
      | some value => exact .inl ⟨info, Keyed.mem_of_lookup hlookup, hkind, hcoerce⟩
      | none =>
        refine .inr ⟨rfl, fun other hother _ => ?_⟩
        rw [honly other hother, hcoerce]
    · rw [declaredText, if_neg hkind]
      refine .inr ⟨rfl, fun other hother hconverted => absurd hconverted ?_⟩
      rwa [honly other hother]

theorem isLoaded_loadedText {collection : Collection} (hfields : Keyed.Distinct collection.fields)
    (path s : String) : IsLoaded collection (Path.ofText path) s (loadedText collection path s) := by
  unfold IsLoaded loadedText
  simp only [convertsTo_ofText_iff]
  obtain ⟨info, hinfo, hkind, hcoerce⟩ | ⟨hstays, hnone⟩ := declaredText_lookup hfields path s
  · rw [convertText_of_coerce hkind hcoerce, ite_self]
    exact .inl ⟨info.kind, .inl ⟨info, hinfo, hkind, rfl⟩, hcoerce⟩
  · rw [hstays]
    by_cases hid : path = "_id"
    · rw [if_pos hid, convertText_string]
      cases hcoerce : FieldKind.objectId.coerce? s with
      | some value => exact .inl ⟨.objectId, .inr ⟨hid, rfl⟩, hcoerce⟩
      | none =>
        refine .inr ⟨rfl, ?_⟩
        rintro kind (⟨info, hinfo, hkind, rfl⟩ | ⟨-, rfl⟩)
        · exact hnone info hinfo hkind
        · exact hcoerce
    · rw [if_neg hid]
      refine .inr ⟨rfl, ?_⟩
      rintro kind (⟨info, hinfo, hkind, rfl⟩ | ⟨hself, -⟩)
      · exact hnone info hinfo hkind
      · exact absurd hself hid

theorem isLoaded_loadedAt {collection : Collection} (hfields : Keyed.Distinct collection.fields)
    (place : Path) (s : String) : IsLoaded collection place s (loadedAt collection place s) := by
  unfold loadedAt
  split
  · next hplace =>
    have hloaded := isLoaded_loadedText hfields (Path.text place) s
    rwa [hplace] at hloaded
  · next hplace =>
    refine .inr ⟨rfl, fun kind hconverts => absurd ?_ hplace⟩
    cases hconverts <;> rw [Path.text_ofText]

theorem isScalar_loadedAt (collection : Collection) (place : Path) (s : String) :
    (loadedAt collection place s).IsScalar := by
  unfold loadedAt
  split
  · exact (isWritten_loadedText collection _ s).isScalar
  · trivial

theorem retold_loadedAt {collection : Collection} (hfields : Keyed.Distinct collection.fields)
    (place : Path) (s : String) :
    (loadedAt collection place s).retold (loadedAt collection) place = loadedAt collection place s := by
  obtain ⟨kind, hconverts, hvalue⟩ | ⟨hvalue, -⟩ := isLoaded_loadedAt hfields place s
  · exact retold_of_coerce (isConverted_of_convertsTo hconverts) hvalue _ _
  · rw [hvalue, retold, hvalue]

/-- Converting twice is converting once. -/
theorem convertDeclared_convertDeclared {collection : Collection}
    (hfields : Keyed.Distinct collection.fields) {doc : Document} (hdoc : doc.WellKeyed) :
    convertDeclared collection (convertDeclared collection doc) = convertDeclared collection doc := by
  rw [convertDeclared_eq_retold hfields (wellKeyed_convertDeclared collection hdoc),
    convertDeclared_eq_retold hfields hdoc, retoldFields_retoldFields (isScalar_loadedAt collection)]
  congr 1
  funext place s
  exact retold_loadedAt hfields place s

/-- The order in which the fields come does not matter. -/
theorem convertDeclared_of_perm {collection : Collection} (hfields : Keyed.Distinct collection.fields)
    {fields : List (String × FieldInfo)} (hperm : collection.fields.Perm fields) {doc : Document}
    (hdoc : doc.WellKeyed) :
    convertDeclared { collection with fields := fields } doc = convertDeclared collection doc := by
  have hdistinct : Keyed.Distinct fields := (hperm.map Prod.fst).nodup_iff.1 hfields
  rw [convertDeclared_eq_retold hfields hdoc, convertDeclared_eq_retold hdistinct hdoc]
  congr 1
  funext place s
  simp only [loadedAt, loadedText, Keyed.lookup_of_perm hperm hfields]

/-- **Loading does not depend on the order of the declarations.**  They may come in any order, a
document that was loaded is loaded as it is, and the one pass that loading amounts to changes texts
at declared places only, each into the value that it writes. -/
theorem convertDeclared_once_in_any_order {collection : Collection}
    (hfields : Keyed.Distinct collection.fields) {doc : Document} (hdoc : doc.WellKeyed) :
    (∀ fields, collection.fields.Perm fields →
      convertDeclared { collection with fields := fields } doc = convertDeclared collection doc) ∧
    convertDeclared collection (convertDeclared collection doc) = convertDeclared collection doc ∧
    convertDeclared collection doc = retoldFields (loadedAt collection) [] doc ∧
    ∀ place s, IsLoaded collection place s (loadedAt collection place s) :=
  ⟨fun _ hperm => convertDeclared_of_perm hfields hperm hdoc,
    convertDeclared_convertDeclared hfields hdoc, convertDeclared_eq_retold hfields hdoc,
    isLoaded_loadedAt hfields⟩

namespace BirthdaysOfFriends

/-- The path of a field, and another one that it leads through; the ids are declared to be dates. -/
def people : Collection :=
  ⟨[("friends", ⟨.objectId, some "people", true⟩), ("friends.born", ⟨.date, none, false⟩),
    ("_id", ⟨.date, none, false⟩)], [], .standard⟩

/-- Ann names one friend by id, and tells of another one. -/
def ann : Document :=
  [("_id", .string "65f0000000000000000000aa"),
    ("friends", .array [.string "65f0000000000000000000bb",
      .document [("name", .string "Ben"), ("born", .string "1993-04-01")]])]

theorem ann_loaded_once :
    convertDeclared { people with fields := people.fields.reverse } ann = convertDeclared people ann ∧
      convertDeclared people (convertDeclared people ann) = convertDeclared people ann ∧
      convertDeclared people ann = retoldFields (loadedAt people) [] ann ∧
      ∀ place s, IsLoaded people place s (loadedAt people place s) := by
  have hfields : Keyed.Distinct people.fields := by simp [Keyed.Distinct, Keyed.keys, people]
  have hann : ann.WellKeyed := by
    simp [ann, Document.WellKeyed, Value.WellKeyed, Value.WellKeyedFields, Value.WellKeyedItems,
      Keyed.Distinct, Keyed.keys]
  obtain ⟨horder, hrest⟩ := convertDeclared_once_in_any_order hfields hann
  exact ⟨horder _ (List.reverse_perm _).symm, hrest⟩

end BirthdaysOfFriends

end DocQuery.CommandLine
