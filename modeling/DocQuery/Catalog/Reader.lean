import DocQuery.Catalog.Basic
import DocQuery.Json.Reader
import DocQuery.Json.Writer

/-!
# Catalogs as JSON

A record is an object whose known members stand at most once. The others do not count, and what
stands in them need not mean anything. A record may also be an array of its members in their order,
without some at its end. A member that is not there has its default, which is not the same as one
that is null.
-/

namespace DocQuery.Catalog

open Json (Form)

/-- The members of an object whose names all mean something. -/
def named? : List (Option String × Form) → Option (List (String × Form))
  | [] => some []
  | (name, value) :: rest => do
    let name ← name
    let members ← named? rest
    some ((name, value) :: members)

/-- The values of a record's members by their names, `none` for those that are not there. -/
def record? (names : List String) : Form → Option (List (Option Form))
  | .object members => do
    let members ← named? members
    let known := members.filter fun (name, _) => names.contains name
    let found := known.map Prod.fst
    if found.eraseDups.length = found.length then some (names.map fun name => known.lookup name)
    else none
  | .array items =>
    if items.length ≤ names.length then
      some (items.map some ++ List.replicate (names.length - items.length) none)
    else none
  | _ => none

/-- The name of an alternative without parts: a text, or an object that holds null under it. -/
def variant? : Form → Option String
  | .string name => name
  | .object [(name, .null)] => name
  | _ => none

def string? : Form → Option String
  | .string s => s
  | _ => none

def bool? : Form → Option Bool
  | .bool b => some b
  | _ => none

/-- A value that may be null. -/
def nullable? {α : Type} (read : Form → Option α) : Form → Option (Option α)
  | .null => some none
  | value => (read value).map some

def list? {α : Type} (read : Form → Option α) : Form → Option (List α)
  | .array items => items.mapM read
  | _ => none

/-- An object read as a list with keys: of a name that stands twice the last value counts. -/
def map? {α : Type} (read : Form → Option α) : Form → Option (List (String × α))
  | .object members => do
    let members ← named? members
    let values ← members.mapM fun (member : String × Form) =>
      (read member.2).map fun value => (member.1, value)
    some (Keyed.ofList values)
  | _ => none

/-- A member with its default. -/
def orElse {α : Type} (read : Form → Option α) (fallback : α) : Option Form → Option α
  | none => some fallback
  | some value => read value

def kind? (value : Form) : Option FieldKind :=
  match variant? value with
  | some "object_id" => some .objectId
  | some "date" => some .date
  | some "number" => some .number
  | some "boolean" => some .boolean
  | some "string" => some .string
  | some "document" => some .document
  | some "mixed" => some .mixed
  | _ => none

def pagination? (value : Form) : Option Pagination :=
  match variant? value with
  | some "facet" => some .facet
  | some "legacy" => some .legacy
  | _ => none

/-- A number of 64 bits without a sign. -/
def word? : Form → Option UInt64
  | .number (some (.whole n)) => if 0 ≤ n then some (UInt64.ofNat n.toNat) else none
  | _ => none

def fieldInfo? (value : Form) : Option FieldInfo := do
  match ← record? ["type", "ref", "array"] value with
  | [some kind, target, many] =>
    some ⟨← kind? kind, ← orElse (nullable? string?) none target, ← orElse bool? false many⟩
  | _ => none

/-- The names of the options in their order. -/
def optionNames : List String :=
  ["protected_fields", "default_fields", "default_sort", "default_limit",
    "fields_for_default_query", "fields_for_default_search", "pagination", "page_key", "limit_key",
    "fields_key", "sort_key", "query_key", "search_key", "unwind_key", "all_fields_key"]

def options? (value : Form) : Option Options := do
  let standard := Options.standard
  match ← record? optionNames value with
  | [hidden, fields, sort, limit, query, search, pagination, pageKey, limitKey, fieldsKey, sortKey,
      queryKey, searchKey, unwindKey, allFieldsKey] =>
    some {
      protectedFields := ← orElse (nullable? string?) standard.protectedFields hidden
      defaultFields := ← orElse (nullable? string?) standard.defaultFields fields
      defaultSort := ← orElse (nullable? string?) standard.defaultSort sort
      defaultLimit := ← orElse word? standard.defaultLimit limit
      queryFields := ← orElse (nullable? string?) standard.queryFields query
      searchFields := ← orElse (list? string?) standard.searchFields search
      pagination := ← orElse pagination? standard.pagination pagination
      pageKey := ← orElse string? standard.pageKey pageKey
      limitKey := ← orElse string? standard.limitKey limitKey
      fieldsKey := ← orElse string? standard.fieldsKey fieldsKey
      sortKey := ← orElse string? standard.sortKey sortKey
      queryKey := ← orElse string? standard.queryKey queryKey
      searchKey := ← orElse string? standard.searchKey searchKey
      unwindKey := ← orElse string? standard.unwindKey unwindKey
      allFieldsKey := ← orElse string? standard.allFieldsKey allFieldsKey }
  | _ => none

def collection? (value : Form) : Option Collection := do
  match ← record? ["fields", "text_index", "options"] value with
  | [fields, textIndex, options] =>
    some ⟨← orElse (map? fieldInfo?) [] fields, ← orElse (list? string?) [] textIndex,
      ← orElse options? .standard options⟩
  | _ => none

/-- The catalog that the form of a JSON text describes. -/
def ofForm? (value : Form) : Option Catalog := map? collection? value

/-- The catalog that a JSON value describes. -/
def ofJson? (value : Json) : Option Catalog := ofForm? value.form

/-- The catalog that a JSON text describes. -/
def read (s : String) : Option Catalog := (Json.readForm s).bind ofForm?

/-! ### Writing -/

def textOrNull : Option String → Json
  | none => .null
  | some s => .string s

def kindName : FieldKind → String
  | .objectId => "object_id"
  | .date => "date"
  | .number => "number"
  | .boolean => "boolean"
  | .string => "string"
  | .document => "document"
  | .mixed => "mixed"

def paginationName : Pagination → String
  | .facet => "facet"
  | .legacy => "legacy"

/-- The record of a field; the member of a reference is there only if the field is one. -/
def fieldInfoJson (info : FieldInfo) : Json :=
  .object <| ("type", .string (kindName info.kind)) ::
    (info.target.toList.map fun target => ("ref", .string target)) ++ [("array", .bool info.many)]

def optionsJson (o : Options) : Json :=
  .object <| optionNames.zip [textOrNull o.protectedFields, textOrNull o.defaultFields,
    textOrNull o.defaultSort, .whole o.defaultLimit.toNat, textOrNull o.queryFields,
    .array (o.searchFields.map .string), .string (paginationName o.pagination),
    .string o.pageKey, .string o.limitKey, .string o.fieldsKey, .string o.sortKey,
    .string o.queryKey, .string o.searchKey, .string o.unwindKey, .string o.allFieldsKey]

def collectionJson (c : Collection) : Json :=
  .object [("fields", .object (c.fields.map fun (path, info) => (path, fieldInfoJson info))),
    ("text_index", .array (c.textIndex.map .string)), ("options", optionsJson c.options)]

/-- A catalog as JSON, with every option written. -/
def toJson (catalog : Catalog) : Json :=
  .object (catalog.map fun (name, collection) => (name, collectionJson collection))

/-- The text of a catalog. -/
def text (catalog : Catalog) : String := (toJson catalog).compact

end DocQuery.Catalog
