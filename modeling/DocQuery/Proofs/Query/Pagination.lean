import DocQuery.Proofs.Keyed
import DocQuery.Query.Compile

/-!
# Compiling does not look at how pages are counted

`Catalog.paginated` lets each collection of a catalog count its pages in another way.  A request means
the same query in both catalogs (`Compiler.compile_paginated`): of a collection only the declared
fields and the other options are read.
-/

namespace DocQuery

namespace Collection

/-- The collection with another way to count pages. -/
def paginated (p : Pagination) (c : Collection) : Collection :=
  { c with options := { c.options with pagination := p } }

variable (p : Pagination) (c : Collection)

@[simp] theorem info?_paginated (path : String) : (c.paginated p).info? path = c.info? path := rfl

theorem referenceFrom_paginated (taken rest : Path) :
    (c.paginated p).referenceFrom taken rest = c.referenceFrom taken rest := by
  induction rest generalizing taken with
  | nil => rfl
  | cons key rest ih =>
    rw [referenceFrom, referenceFrom, ih]
    rfl

@[simp] theorem reference?_paginated (path : String) :
    (c.paginated p).reference? path = c.reference? path :=
  c.referenceFrom_paginated p [] (Path.ofText path)

@[simp] theorem foreign?_paginated (path : String) :
    (c.paginated p).foreign? path = c.foreign? path := by
  rw [foreign?, foreign?, reference?_paginated]

@[simp] theorem recognizes_paginated (path : String) :
    (c.paginated p).recognizes path = c.recognizes path := rfl

@[simp] theorem protectedSelection_paginated :
    (c.paginated p).protectedSelection = c.protectedSelection := rfl

end Collection

/-- The catalog with another way to count the pages of each collection. -/
def Catalog.paginated (strategy : String → Pagination) (catalog : Catalog) : Catalog :=
  catalog.map fun (name, c) => (name, c.paginated (strategy name))

variable (strategy : String → Pagination)

@[simp] theorem Catalog.find?_paginated (catalog : Catalog) (name : String) :
    (catalog.paginated strategy).find? name =
      (catalog.find? name).map (Collection.paginated (strategy name)) :=
  Keyed.lookup_map_value (fun name => Collection.paginated (strategy name)) name catalog

@[simp] theorem Catalog.hasTextIndex_paginated (catalog : Catalog) (name : String) :
    (catalog.paginated strategy).hasTextIndex name = catalog.hasTextIndex name := by
  rw [hasTextIndex, hasTextIndex, find?_paginated]
  cases catalog.find? name <;> rfl

/-! ### Joins, searches and sort orders -/

section Parts

variable (p : Pagination) (c : Collection)

mutual

theorem Join.planNode_paginated (joins : List Join) (path : String) (node : Selection.Node) :
    planNode (c.paginated p) joins path node = planNode c joins path node := by
  cases node with
  | marker n => simp only [planNode, Collection.reference?_paginated]
  | group entries =>
    simp only [planNode, Collection.reference?_paginated,
      planEntries_paginated joins (some path) entries]

theorem Join.planEntries_paginated (joins : List Join) (above : Option String)
    (entries : List (String × Selection.Node)) :
    planEntries (c.paginated p) joins above entries = planEntries c joins above entries := by
  cases entries with
  | nil => rfl
  | cons entry rest =>
    obtain ⟨key, node⟩ := entry
    rw [planEntries, planEntries, planNode_paginated joins (pathBelow above key) node,
      planEntries_paginated _ above rest]

end

theorem Search.addField_paginated (patterns : List String) :
    addField (c.paginated p) patterns = addField c patterns := by
  funext filter field
  rw [addField, addField, Collection.foreign?_paginated]

theorem Search.freeText_paginated (query : String) (hasIndex : Bool) (filter : Filter) :
    freeText query hasIndex (c.paginated p) filter = freeText query hasIndex c filter := by
  simp only [freeText, addField_paginated]
  rfl

theorem SortOrder.addKey_paginated (textSearch : Bool) :
    addKey (c.paginated p) textSearch = addKey c textSearch := by
  funext order key
  rw [addKey, addKey, Collection.recognizes_paginated, Collection.foreign?_paginated]

theorem SortOrder.compile_paginated (requested : Option String) (textSearch : Bool) :
    compile requested (c.paginated p) textSearch = compile requested c textSearch := by
  rw [compile, compile, addKey_paginated]
  rfl

end Parts

/-! ### Requests -/

namespace Compiler

/-- The compiler for the catalog with other ways to count pages. -/
def paginated (c : Compiler) : Compiler :=
  { c with
    catalog := c.catalog.paginated strategy
    collection := c.collection.paginated (strategy c.name) }

theorem new_paginated (catalog : Catalog) (name : String) :
    new (catalog.paginated strategy) name = (new catalog name).map (paginated strategy) := by
  rw [new, new, Catalog.find?_paginated]
  cases catalog.find? name with
  | none => rfl
  | some c =>
    simp only [Option.map_some, Collection.protectedSelection_paginated]
    cases c.protectedSelection <;> rfl

theorem stripJoins_paginated (catalog : Catalog) (joins : List Join) :
    stripJoins (catalog.paginated strategy) joins = stripJoins catalog joins := by
  induction joins with
  | nil => rfl
  | cons join rest ih =>
    rw [stripJoins, stripJoins, ih, Catalog.find?_paginated]
    cases catalog.find? join.collection <;> rfl

variable (c : Compiler)

theorem planJoins_paginated (selection : Selection) :
    (c.paginated strategy).planJoins selection = c.planJoins selection := by
  have hplan : Join.plan (c.paginated strategy).collection selection =
      Join.plan c.collection selection :=
    Join.planEntries_paginated _ c.collection [] none selection
  rw [planJoins, planJoins, hplan]
  exact stripJoins_paginated strategy c.catalog _

theorem targetInfo_paginated (collection path : String) :
    (c.paginated strategy).targetInfo collection path = c.targetInfo collection path := by
  rw [targetInfo, targetInfo, paginated, Catalog.find?_paginated]
  cases c.catalog.find? collection <;> rfl

theorem addPair_paginated : (c.paginated strategy).addPair = c.addPair := by
  have hclause : (c.paginated strategy).clauseFor = c.clauseFor := by
    funext key condition filter
    simp only [clauseFor, targetInfo_paginated]
    simp only [paginated, Collection.info?_paginated, Collection.foreign?_paginated]
  funext filter pair
  rw [addPair, addPair, hclause]
  rfl

theorem filterOf_paginated (request : Request) :
    (c.paginated strategy).filterOf request = c.filterOf request := by
  simp only [filterOf, addPair_paginated]
  simp only [paginated, Search.freeText_paginated, Catalog.hasTextIndex_paginated]
  rfl

/-- A request means the same query. -/
theorem compile_paginated (request : Request) :
    (c.paginated strategy).compile request = c.compile request := by
  have hunwind : (c.paginated strategy).unwindOf request = c.unwindOf request := by
    simp only [unwindOf, paginated, Collection.foreign?_paginated]
    rfl
  have hselection : (c.paginated strategy).selectionOf request = c.selectionOf request := rfl
  have hproject : (c.paginated strategy).projectDocument = c.projectDocument := rfl
  simp only [compile, filterOf_paginated, planJoins_paginated, hunwind, hselection, hproject]
  simp only [paginated, SortOrder.compile_paginated, Catalog.hasTextIndex_paginated]
  rfl

end Compiler

end DocQuery
