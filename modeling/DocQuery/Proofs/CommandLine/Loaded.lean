import DocQuery.CommandLine.Loader
import DocQuery.Proofs.Keyed
import DocQuery.Proofs.Query.Conditions
import DocQuery.Query.Compile

/-!
# Loaded texts are found again

The loader turns texts at declared paths into the values that they write, and a filter turns the text of
a request into a value by the same declarations.  A scalar at a path is changed by the conversion of that
path only, so a text in a data file becomes `CommandLine.loadedText` (`get_convertDeclared`), and it is
found if that equals what the filter asks for (`Compiler.finds_loaded_iff`).

The two differ at `_id` alone: the loader takes a text there for an object id whenever it writes one,
also where the catalog declares another kind (`CommandLine.MisreadsId`).
-/

namespace DocQuery

open Test

/-- What a text writes equals itself alone, unless it is a number. -/
theorem Value.IsWritten.equals_iff_eq {a b : Value} (h : a.IsWritten) (hnumber : a.asDouble? = none) :
    a.equals b = true ↔ a = b := by
  have hrigid : a.IsRigid := by
    obtain ⟨_, h⟩ := h
    cases h <;> trivial
  have hsame : a.equals b = a.same b := by rw [Value.equals, hnumber]
  rw [hsame, hrigid.same_iff]

/-! ### What the loader makes of a text -/

namespace CommandLine

variable {kind : FieldKind} {path other s : String} {value : Value} {doc : Document}

theorem convertText_string (kind : FieldKind) (s : String) :
    convertText kind (.string s) = (kind.coerce? s).getD (.string s) := rfl

theorem isWritten_convertText (kind : FieldKind) (h : value.IsWritten) :
    (convertText kind value).IsWritten := by
  obtain ⟨_, h⟩ := h
  cases h with
  | string s | document s | mixed s => exact .coerceOrText (some ⟨kind, none, false⟩) s
  | objectId id => exact ⟨_, .objectId id⟩
  | date t => exact ⟨_, .date t⟩
  | whole n => exact ⟨_, .whole n⟩
  | real x => exact ⟨_, .real x⟩
  | boolean b => exact ⟨_, .boolean b⟩

theorem convertValue_of_isScalar (h : value.IsScalar) :
    convertValue kind value = convertText kind value := by
  cases value <;> first | rfl | exact h.elim

/-- A scalar at the path is converted by itself. -/
theorem get_convertAt_self (h : Path.get doc (Path.ofText path) = some value)
    (hvalue : value.IsScalar) :
    Path.get (convertAt kind path doc) (Path.ofText path) = some (convertText kind value) := by
  rw [convertAt, Path.get_update_replaced, h, Option.map_some, convertValue_of_isScalar hvalue]

/-- A scalar at another path stays as it is. -/
theorem get_convertAt_of_ne (hne : path ≠ other) (hvalue : value.IsScalar)
    (h : Path.get doc (Path.ofText other) = some value) :
    Path.get (convertAt kind path doc) (Path.ofText other) = some value :=
  Path.get_update_of_scalar (fun _ => rfl) (Path.ofText_injective.ne hne) (Path.ofText_ne_nil path)
    hvalue h

/-- A document with the texts of one declared field converted. -/
def convertField (doc : Document) (field : String × FieldInfo) : Document :=
  if isConverted field.2.kind then convertAt field.2.kind field.1 doc else doc

theorem convertDeclared_eq (collection : Collection) (doc : Document) :
    convertDeclared collection doc =
      convertAt .objectId "_id" (collection.fields.foldl convertField doc) := rfl

/-- What a text becomes under a declaration. -/
def declaredText (info : Option FieldInfo) (s : String) : Value :=
  match info with
  | some info => if isConverted info.kind then convertText info.kind (.string s) else .string s
  | none => .string s

theorem isWritten_declaredText (info : Option FieldInfo) (s : String) :
    (declaredText info s).IsWritten := by
  unfold declaredText
  split
  · split
    · exact isWritten_convertText _ (.string s)
    · exact .string s
  · exact .string s

/-- What a text at a path becomes in the store. -/
def loadedText (collection : Collection) (path s : String) : Value :=
  let declared := declaredText (collection.fields.lookup path) s
  if path = "_id" then convertText .objectId declared else declared

theorem get_convertField_of_ne {field : String × FieldInfo} (hne : field.1 ≠ path)
    (hvalue : value.IsScalar) (h : Path.get doc (Path.ofText path) = some value) :
    Path.get (convertField doc field) (Path.ofText path) = some value := by
  unfold convertField
  split
  · exact get_convertAt_of_ne hne hvalue h
  · exact h

/-- The fields declared at other paths leave a scalar as it is. -/
theorem get_convertFields_of_notMem {fields : List (String × FieldInfo)}
    (hnew : path ∉ Keyed.keys fields) (hvalue : value.IsScalar)
    (h : Path.get doc (Path.ofText path) = some value) :
    Path.get (fields.foldl convertField doc) (Path.ofText path) = some value := by
  induction fields generalizing doc with
  | nil => exact h
  | cons field rest ih =>
    rw [Keyed.keys, List.map_cons, List.mem_cons, not_or] at hnew
    exact ih hnew.2 (get_convertField_of_ne (Ne.symm hnew.1) hvalue h)

/-- Of all declarations only that of its own path counts for a text. -/
theorem get_convertFields {fields : List (String × FieldInfo)} (hdistinct : Keyed.Distinct fields)
    (h : Path.get doc (Path.ofText path) = some (.string s)) :
    Path.get (fields.foldl convertField doc) (Path.ofText path) =
      some (declaredText (fields.lookup path) s) := by
  induction fields generalizing doc with
  | nil => exact h
  | cons field rest ih =>
    obtain ⟨key, info⟩ := field
    obtain ⟨hnew, hrest⟩ := List.nodup_cons.1 hdistinct
    rw [List.foldl_cons]
    by_cases hkey : key = path
    · subst hkey
      have hfield : Path.get (convertField doc (key, info)) (Path.ofText key) =
          some (declaredText (some info) s) := by
        unfold convertField declaredText
        dsimp only
        split
        · exact get_convertAt_self h trivial
        · exact h
      rw [List.lookup_cons_self]
      exact get_convertFields_of_notMem hnew (isWritten_declaredText _ s).isScalar hfield
    · have hlookup : List.lookup path ((key, info) :: rest) = rest.lookup path := by
        rw [List.lookup_cons, beq_false_of_ne (Ne.symm hkey)]
      rw [hlookup]
      exact ih hrest (get_convertField_of_ne hkey trivial h)

/-- A text at a path is loaded as `loadedText` says, whatever else the document holds and the catalog
declares. -/
theorem get_convertDeclared {collection : Collection} (hdistinct : Keyed.Distinct collection.fields)
    (h : Path.get doc (Path.ofText path) = some (.string s)) :
    Path.get (convertDeclared collection doc) (Path.ofText path) =
      some (loadedText collection path s) := by
  have hdeclared := get_convertFields hdistinct h
  have hscalar := (isWritten_declaredText (collection.fields.lookup path) s).isScalar
  rw [convertDeclared_eq]
  unfold loadedText
  dsimp only
  split
  · next hid =>
    subst hid
    exact get_convertAt_self hdeclared hscalar
  · next hid => exact get_convertAt_of_ne (Ne.symm hid) hscalar hdeclared

/-! ### What the loader and a filter make of one text -/

/-- Where the catalog declares this kind for `_id`, the loader and a filter take a text there for
different values.  The loader first takes it for a date if that is the kind, then for an object id, and
never for a number or a boolean. -/
def MisreadsId (kind : FieldKind) (s : String) : Prop :=
  match kind with
  | .objectId => False
  | .date => FieldKind.date.coerce? s = none ∧ FieldKind.objectId.coerce? s ≠ none
  | .number => FieldKind.number.coerce? s ≠ none ∨ FieldKind.objectId.coerce? s ≠ none
  | .boolean => FieldKind.boolean.coerce? s ≠ none ∨ FieldKind.objectId.coerce? s ≠ none
  | _ => FieldKind.objectId.coerce? s ≠ none

theorem isWritten_loadedText (collection : Collection) (path s : String) :
    (loadedText collection path s).IsWritten := by
  unfold loadedText
  dsimp only
  split
  · exact isWritten_convertText _ (isWritten_declaredText _ s)
  · exact isWritten_declaredText _ s

/-- A text that was converted is not converted again. -/
theorem convertText_convertText (kind : FieldKind) (s : String) :
    convertText kind (convertText kind (.string s)) = convertText kind (.string s) := by
  cases h : kind.coerce? s with
  | none => simp only [convertText_string, h, Option.getD_none]
  | some value =>
    rw [convertText_string, h, Option.getD_some]
    cases FieldKind.writes_of_coerce h <;> rfl

/-- A text stays a text if it writes no object id. -/
theorem convertText_objectId_eq_string_iff (s : String) :
    convertText .objectId (.string s) = .string s ↔ FieldKind.objectId.coerce? s = none := by
  cases h : FieldKind.objectId.coerce? s with
  | none => simp [convertText_string, h]
  | some value =>
    cases FieldKind.writes_of_coerce h
    simp [convertText_string, h]

/-- Kinds without a value in common take a text for the same only if both leave it as it is. -/
theorem convertText_eq_convertText_iff (kind other : FieldKind)
    (happart : ∀ value, kind.Writes value → ¬ other.Writes value)
    (hkind : ¬ kind.Writes (.string s)) (hother : ¬ other.Writes (.string s)) :
    convertText kind (.string s) = convertText other (.string s) ↔
      kind.coerce? s = none ∧ other.coerce? s = none := by
  rw [convertText_string, convertText_string]
  cases h : kind.coerce? s with
  | none =>
    cases h' : other.coerce? s with
    | none => simp
    | some value =>
      have hne : Value.string s ≠ value := by
        rintro rfl
        exact hother (FieldKind.writes_of_coerce h')
      simpa using hne
  | some value =>
    have hwrites := FieldKind.writes_of_coerce h
    cases h' : other.coerce? s with
    | none =>
      have hne : value ≠ .string s := by
        rintro rfl
        exact hkind hwrites
      simpa using hne
    | some second =>
      have hne : value ≠ second := by
        rintro rfl
        exact happart value hwrites (FieldKind.writes_of_coerce h')
      simpa using hne

theorem coerceOrText_some (info : FieldInfo) (s : String) :
    coerceOrText (some info) s = convertText info.kind (.string s) := rfl

/-- What the loader takes a text at `_id` for is what a filter takes it for, unless it is misread. -/
theorem convertText_objectId_eq_iff (info : FieldInfo) (s : String) :
    convertText .objectId (declaredText (some info) s) = coerceOrText (some info) s ↔
      ¬ MisreadsId info.kind s := by
  obtain ⟨kind, target, many⟩ := info
  rw [coerceOrText_some, declaredText]
  dsimp only
  cases kind with
  | objectId =>
    rw [if_pos (by rfl)]
    exact iff_of_true (convertText_convertText .objectId s) not_false
  | date =>
    rw [if_pos (by rfl)]
    simp only [MisreadsId]
    cases h : FieldKind.date.coerce? s with
    | none =>
      have hdate : convertText .date (.string s) = .string s := by rw [convertText_string, h]; rfl
      rw [hdate, convertText_objectId_eq_string_iff]
      simp
    | some value =>
      cases FieldKind.writes_of_coerce h with
      | date t => simp [h, convertText]
  | number =>
    rw [if_neg (by decide), convertText_eq_convertText_iff .objectId .number
      (by rintro _ ⟨⟩ ⟨⟩) (by rintro ⟨⟩) (by rintro ⟨⟩)]
    simp only [MisreadsId, ne_eq, not_or, not_not]
    exact and_comm
  | boolean =>
    rw [if_neg (by decide), convertText_eq_convertText_iff .objectId .boolean
      (by rintro _ ⟨⟩ ⟨⟩) (by rintro ⟨⟩) (by rintro ⟨⟩)]
    simp only [MisreadsId, ne_eq, not_or, not_not]
    exact and_comm
  | string | document | mixed =>
    rw [if_neg (by decide)]
    simp only [MisreadsId, not_not]
    exact convertText_objectId_eq_string_iff s

/-- At the end a text at `_id` is taken for an object id, whatever is declared. -/
theorem loadedText_id (collection : Collection) (s : String) {info : FieldInfo}
    (hinfo : collection.info? "_id" = some info) :
    loadedText collection "_id" s = convertText .objectId (declaredText (some info) s) := by
  unfold Collection.info? at hinfo
  unfold loadedText
  rw [if_pos rfl]
  split at hinfo
  · next hlookup => rw [hlookup, Option.some.inj hinfo]
  · next hlookup =>
    obtain rfl := Option.some.inj ((if_pos rfl).symm.trans hinfo)
    rw [hlookup]
    exact (convertText_convertText .objectId s).symm

theorem loadedText_of_ne (collection : Collection) (s : String) {info : FieldInfo}
    (hne : path ≠ "_id") (hinfo : collection.info? path = some info)
    (hconverted : isConverted info.kind = true) :
    loadedText collection path s = coerceOrText (some info) s := by
  unfold Collection.info? at hinfo
  unfold loadedText
  rw [if_neg hne]
  split at hinfo
  · next hlookup =>
    rw [hlookup, Option.some.inj hinfo, declaredText, if_pos hconverted]
    rfl
  · rw [if_neg hne] at hinfo
    cases hinfo

theorem asDouble?_convertText (hkind : isConverted kind = true) (hvalue : value.asDouble? = none) :
    (convertText kind value).asDouble? = none := by
  cases value with
  | string s =>
    rw [convertText_string]
    cases h : kind.coerce? s with
    | none => rfl
    | some value => cases FieldKind.writes_of_coerce h <;> first | rfl | cases hkind
  | _ => exact hvalue

/-- No text is loaded as a number. -/
theorem asDouble?_loadedText (collection : Collection) (path s : String) :
    (loadedText collection path s).asDouble? = none := by
  have hdeclared : (declaredText (collection.fields.lookup path) s).asDouble? = none := by
    unfold declaredText
    split
    · split
      · next hkind => exact asDouble?_convertText hkind rfl
      · rfl
    · rfl
  unfold loadedText
  dsimp only
  split
  · exact asDouble?_convertText rfl hdeclared
  · exact hdeclared

/-- A text that is loaded equals what a filter takes it for, unless it is misread. -/
theorem loadedText_equals_iff {collection : Collection} {info : FieldInfo}
    (hinfo : collection.info? path = some info)
    (hconverted : path = "_id" ∨ isConverted info.kind = true) :
    (loadedText collection path s).equals (coerceOrText (some info) s) = true ↔
      ¬ (path = "_id" ∧ MisreadsId info.kind s) := by
  rw [(isWritten_loadedText collection path s).equals_iff_eq (asDouble?_loadedText collection path s)]
  by_cases hid : path = "_id"
  · subst hid
    rw [loadedText_id collection s hinfo, convertText_objectId_eq_iff]
    simp
  · rw [loadedText_of_ne collection s hid hinfo (hconverted.resolve_left hid)]
    simp [hid]

end CommandLine

/-! ### What a filter asks for -/

namespace Compiler

variable {c : Compiler} {path s : String}

theorem option?_of_notMem {request : Request} {key : String} (h : key ∉ Keyed.keys request) :
    option? request key = none := by
  rw [option?, Request.get?, Keyed.lookup_eq_none_iff.2 h]
  rfl

/-- A request for one text at a path of which something is known asks for the value that the text is
taken for. -/
theorem filterOf_text {info : FieldInfo} (hinfo : c.collection.info? path = some info)
    (hreserved : c.collection.options.isReserved path = false) (hs : '\x7b' ∉ s.toList) :
    c.filterOf [(path, s)] = ⟨[.field path (coerceOrText (some info) s)], [], none, 0⟩ := by
  have hmark : (Condition.read s).isAlternative = false := by rw [Condition.read_of_plain hs]
  have hpair : c.addPair .empty (path, s) =
      ⟨[.field path (coerceOrText (some info) s)], [], none, 0⟩ := by
    have hclause : c.clauseFor path (Condition.read s) .empty =
        some (.field path (coerceOrText (some info) s), .empty) := by
      rw [clauseFor, hinfo]
      dsimp only
      rw [Condition.compile_of_plain hs]
    rw [addPair, if_neg (by simp [hreserved])]
    dsimp only
    rw [hclause]
    simp [hmark, Filter.addAll, Filter.empty]
  have hnone : ∀ key ∈ c.collection.options.reservedKeys, option? [(path, s)] key = none := by
    intro key hkey
    refine option?_of_notMem ?_
    rw [Keyed.keys, List.map_singleton, List.mem_singleton]
    rintro rfl
    rw [Options.isReserved, List.contains_eq_mem, decide_eq_false_iff_not] at hreserved
    exact hreserved hkey
  rw [filterOf, hnone _ (by simp [Options.reservedKeys]), hnone _ (by simp [Options.reservedKeys])]
  exact hpair

theorem toDocument_filterOf_text {info : FieldInfo} (resolved : ResolvedIds)
    (hinfo : c.collection.info? path = some info)
    (hreserved : c.collection.options.isReserved path = false)
    (hpath : isOperatorKey path = false) (hs : '\x7b' ∉ s.toList) :
    (c.filterOf [(path, s)]).toDocument resolved = [(path, coerceOrText (some info) s)] := by
  have hfield : Filter.isOperatorKey path = false := hpath
  rw [filterOf_text hinfo hreserved hs]
  simp [Filter.toDocument, Filter.Rendering.add, Clause.toDocument, hfield, Keyed.putAll, Keyed.put,
    Keyed.adjust, Document.contains, Document.get?]

/-- **What the loader stored is found again.**  Take any path whose texts the loader converts (it is
`_id`, or it is declared to hold ids or dates) and that is no key of another meaning, and any text without
braces.  A document that holds the text at the path is found, as the loader stores it, by the filter of
the request for the same text; the only exceptions are texts at a declared `_id` that are misread. -/
theorem finds_loaded_iff (c : Compiler) (base : StoredCollection) (resolved : ResolvedIds)
    {info : FieldInfo} {doc : Document} (hdistinct : Keyed.Distinct c.collection.fields)
    (hinfo : c.collection.info? path = some info)
    (hconverted : path = "_id" ∨ CommandLine.isConverted info.kind = true)
    (hreserved : c.collection.options.isReserved path = false)
    (hpath : isOperatorKey path = false) (hs : '\x7b' ∉ s.toList)
    (hdoc : Path.get doc (Path.ofText path) = some (.string s)) :
    base.Finds ((c.filterOf [(path, s)]).toDocument resolved)
        (CommandLine.convertDeclared c.collection doc) ↔
      ¬ (path = "_id" ∧ CommandLine.MisreadsId info.kind s) := by
  have hget := CommandLine.get_convertDeclared hdistinct hdoc
  have hasked : (coerceOrText (some info) s).IsWritten := .coerceOrText (some info) s
  have hloaded := CommandLine.isWritten_loadedText c.collection path s
  rw [toDocument_filterOf_text resolved hinfo hreserved hpath hs,
    StoredCollection.finds_written_iff hpath hasked, hasked.equalsAny_iff hloaded hget,
    CommandLine.loadedText_equals_iff hinfo hconverted]

end Compiler

/-! ### Ids of another kind -/

namespace SlugsAndBirthdays

/-- People with a date of birth; nothing is said of their ids. -/
def people : Collection := ⟨[("born", ⟨.date, none, false⟩)], [], .standard⟩

/-- Pages that are named by texts. -/
def pages : Collection := ⟨[("_id", ⟨.string, none, false⟩)], [], .standard⟩

def ann : Document := [("_id", .string "ann"), ("born", .string " 1993-04-01 ")]

/-- The page is named by a text that could be an object id. -/
def page : Document := [("_id", .string "65f0000000000000000000aa")]

theorem birthday_found_again :
    StoredCollection.Finds ⟨[], []⟩
      ((Compiler.filterOf ⟨[("people", people)], "people", people, []⟩
        [("born", " 1993-04-01 ")]).toDocument [])
      (CommandLine.convertDeclared people ann) := by
  have hdistinct : Keyed.Distinct people.fields := by simp [Keyed.Distinct, Keyed.keys, people]
  have hinfo : people.info? "born" = some ⟨.date, none, false⟩ := rfl
  refine (Compiler.finds_loaded_iff _ _ _ hdistinct hinfo (.inr rfl) (by decide)
    (by decide) (by decide) rfl).2 ?_
  exact fun h => absurd h.1 (by decide)

/-- The loader makes an object id of it, although a text is declared, and a filter for the same text finds
nothing. -/
theorem page_not_found_again :
    Path.get page (Path.ofText "_id") = some (.string "65f0000000000000000000aa") ∧
    ¬ StoredCollection.Finds ⟨[], []⟩
      ((Compiler.filterOf ⟨[("pages", pages)], "pages", pages, []⟩
        [("_id", "65f0000000000000000000aa")]).toDocument [])
      (CommandLine.convertDeclared pages page) := by
  refine ⟨rfl, ?_⟩
  have hinfo : pages.info? "_id" = some ⟨.string, none, false⟩ := rfl
  rw [Compiler.toDocument_filterOf_text [] hinfo (by decide) (by decide) (by decide),
    StoredCollection.finds_written_iff (by decide) (.coerceOrText _ _)]
  decide +kernel

end SlugsAndBirthdays

end DocQuery
