import DocQuery.Proofs.Query.Compiled
import DocQuery.Proofs.Query.Projected
import DocQuery.Proofs.Selection.Covering

/-!
# The fields that a query fetches

What a query selects was written by a text, is apart from the protected fields, and plans the joins of
the query (`Query.Selects`).  A query fetches what it selects, except that for what lies behind the field
of a join it fetches the ids in the field (`Query.Fetches`), and this is what the body of its projection
stage covers (`Compiler.project_fetches`).
-/

namespace DocQuery

open Selection

/-! ### What a request selects -/

/-- What is known of a query with a selection. -/
structure Query.Selects (catalog : Catalog) (collection : Collection) (hidden : Selection)
    (query : Query) (selection : Selection) : Prop where
  written : Fits (written included) selection
  apart : ∀ leaf ∈ leaves selection, ∀ path ∈ leaves hidden, Path.Apart leaf path
  planned : Join.AllPlanned collection (leaves selection) query.joins
  stripped : ∀ join ∈ query.joins, Compiler.Stripped catalog join

namespace Compiler

variable {c : Compiler} {request : Request} {query : Query} {selection : Selection}

theorem exists_read_of_selectionOf (h : c.selectionOf request = .ok (some selection)) :
    ∃ s read, Selection.read included s = .ok read ∧ selection = read.without c.protectedFields := by
  unfold selectionOf at h
  dsimp only at h
  split at h
  · cases h
  · next fields _ =>
    split at h
    · cases h
    · obtain ⟨read, hread, hselection⟩ := Outcome.map_eq_ok_iff.1 h
      exact ⟨fields, read, Outcome.mapError_eq_ok_iff.1 hread, (Option.some.inj hselection).symm⟩

theorem Means.selects (h : c.Means request query) (hselection : query.selection = some selection) :
    query.Selects c.catalog c.collection c.protectedFields selection := by
  have hof := h.selection
  rw [hselection] at hof
  obtain ⟨s, read, hread, rfl⟩ := exists_read_of_selectionOf hof
  have hwritten := fits_without c.protectedFields (fits_read hread)
  obtain ⟨hplanned, hstripped⟩ := planned_of_planJoins hwritten (h.joinsOfSelection _ hselection)
  exact ⟨hwritten, fun leaf hleaf path => apart_without hleaf, hplanned, hstripped⟩

/-- The body of a query with a selection asks for what is taken. -/
theorem Means.exists_body_of_some (h : c.Means request query)
    (hselection : query.selection = some selection) : ∃ body, query.project = some body ∧
      Projection.Asks (taken selection query.joins) query.textSearch body := by
  rw [h.project, hselection]
  exact Compiler.exists_body_of_some c selection query.joins query.textSearch

end Compiler

/-! ### What the projection stage takes -/

/-- A path that a query fetches: it is selected and not behind the field of a join, or it is fetched for
the ids in such a field. -/
def Query.Fetches (query : Query) (selection : Selection) (path : Path) : Prop :=
  (∃ leaf ∈ leaves selection, (∀ join ∈ query.joins, ¬ Path.ofText join.field <+: leaf) ∧
    leaf <+: path) ∨
  ∃ join ∈ query.joins, Path.ofText join.field <+: path

namespace Query.Selects

variable {catalog : Catalog} {collection : Collection} {hidden selection : Selection} {query : Query}
  {path : Path}

/-- What is selected behind the field of a join is fetched with the field. -/
theorem fetches_iff : query.Fetches selection path ↔
    Covers (Compiler.marked selection.canonical query.joins) path := by
  rw [Compiler.covers_marked_iff (nested_canonical selection), covers_canonical_iff, Fetches]
  constructor
  · exact Or.imp_left fun ⟨leaf, hleaf, _, hbegin⟩ => ⟨leaf, hleaf, hbegin⟩
  · rintro (⟨leaf, hleaf, hbegin⟩ | hjoin)
    · by_cases hfield : ∃ join ∈ query.joins, Path.ofText join.field <+: leaf
      · obtain ⟨join, hjoin, hleaf⟩ := hfield
        exact .inr ⟨join, hjoin, hleaf.trans hbegin⟩
      · push Not at hfield
        exact .inl ⟨leaf, hleaf, hfield, hbegin⟩
    · exact .inr hjoin

theorem taken_of_fetches (h : query.Fetches selection path) :
    Compiler.taken selection query.joins = Compiler.marked selection.canonical query.joins := by
  obtain ⟨leaf, hleaf, -⟩ := fetches_iff.1 h
  rw [Compiler.taken, orId, if_neg]
  rw [List.isEmpty_iff]
  intro hnil
  rw [hnil] at hleaf
  cases hleaf

/-- Where nothing is fetched, nothing is selected, and there are no joins. -/
theorem eq_nil_of_not_fetches (h : query.Selects catalog collection hidden selection)
    (hnone : ¬ ∃ path, query.Fetches selection path) : selection = [] ∧ query.joins = [] := by
  have hjoins : query.joins = [] := by
    by_contra hne
    obtain ⟨join, hjoin⟩ := List.exists_mem_of_ne_nil _ hne
    exact hnone ⟨_, .inr ⟨join, hjoin, List.prefix_refl _⟩⟩
  refine ⟨?_, hjoins⟩
  by_contra hne
  obtain ⟨leaf, hleaf⟩ := exists_mem_leaves_of_ne_nil h.written hne
  exact hnone ⟨leaf, .inl ⟨leaf, hleaf, by simp [hjoins], leaf.prefix_refl⟩⟩

end Query.Selects

namespace Compiler

/-- **The projection stage fetches what is selected and the ids that the joins need.**  Without a text
search, the body of a query with a selection takes fields only.  It covers a path if a selected one that
is not behind the field of a join does, or the field of a join; if there are none of them, it takes the
`_id` alone.  So it covers the field of each join, and takes nothing behind it by itself. -/
theorem project_fetches {c : Compiler} {request : Request} {query : Query} {selection : Selection}
    (h : c.compile request = .ok query) (hselection : query.selection = some selection)
    (hsearch : query.textSearch = false) :
    ∃ body, query.project = some body ∧
      Projection.FlagBody (· = .int32 included) body ∧
      ((∃ path, query.Fetches selection path) → ∀ path,
        (∃ leaf ∈ flagPathsOf body, leaf <+: path) ↔ query.Fetches selection path) ∧
      ((¬ ∃ path, query.Fetches selection path) → body = [("_id", .int32 included)]) ∧
      ∀ join ∈ query.joins,
        (∃ leaf ∈ flagPathsOf body, leaf <+: Path.ofText join.field) ∧
          ∀ leaf ∈ flagPathsOf body, Path.ofText join.field <+: leaf → leaf = Path.ofText join.field := by
  have hmeans := means_of_compile h
  have hselects := hmeans.selects hselection
  obtain ⟨body, hbody, hasks⟩ := hmeans.exists_body_of_some hselection
  rw [hsearch] at hasks
  have hnested := nested_taken selection query.joins
  have hwritten := fits_taken hselects.written hselects.planned
  have hcovers : (∃ path, query.Fetches selection path) → ∀ path,
      (∃ leaf ∈ flagPathsOf body, leaf <+: path) ↔ query.Fetches selection path := by
    rintro ⟨other, hother⟩ path
    have htaken := Query.Selects.taken_of_fetches hother
    simp only [hasks.mem_flagPathsOf_iff hnested, htaken]
    exact Query.Selects.fetches_iff.symm
  refine ⟨body, hbody, hasks.flagBody _ rfl hwritten hnested, hcovers, fun hnone => ?_,
    fun join hjoin => ?_⟩
  · obtain ⟨rfl, hjoins⟩ := hselects.eq_nil_of_not_fetches hnone
    have hproject := hmeans.project
    rw [hbody, hselection, hjoins, hsearch] at hproject
    exact Option.some.inj hproject
  · have hfield : query.Fetches selection (Path.ofText join.field) :=
      .inr ⟨join, hjoin, List.prefix_refl _⟩
    obtain ⟨flag, hflag, hbegin⟩ := (hcovers ⟨_, hfield⟩ _).2 hfield
    refine ⟨⟨flag, hflag, hbegin⟩, fun leaf hleaf hbehind => ?_⟩
    -- of two flags none is behind the other
    rw [hasks.mem_flagPathsOf_iff hnested] at hflag hleaf
    have hsame : flag = leaf := eq_of_prefix hnested hflag hleaf (hbegin.trans hbehind)
    subst hsame
    exact hbegin.eq_of_length (Nat.le_antisymm hbegin.length_le hbehind.length_le)

end Compiler

/-! ### The title, the home and the author of a post -/

namespace PostsWithHomes

def posts : Collection :=
  ⟨[("author", ⟨.objectId, some "people", false⟩), ("home.owner", ⟨.objectId, some "people", false⟩),
      ("title", ⟨.string, none, false⟩)],
    [], { Options.standard with defaultSort := none }⟩

def compiler : Compiler := ⟨[("posts", posts)], "posts", posts, []⟩

def request : Request := [("$fields", "title home.owner.name home author.name author.email")]

def selection : Selection :=
  [("title", .marker included), ("home.owner.name", .marker included), ("home", .marker included),
    ("author.name", .marker included), ("author.email", .marker included)]

def joins : List Join :=
  [⟨"home.owner", "people", [("name", .marker included)], false⟩,
    ⟨"author", "people", [("name", .marker included), ("email", .marker included)], false⟩]

theorem compile_eq : compiler.compile request =
    .ok (compiler.assembled request (some selection) joins ⟨[], []⟩) := by
  have htokens : tokens "title home.owner.name home author.name author.email" =
      .ok [.key "title", .key "home.owner.name", .key "home", .key "author.name",
        .key "author.email"] := by decide +kernel
  have hread : Selection.read included "title home.owner.name home author.name author.email" =
      .ok selection := by
    rw [Selection.read, htokens]
    rfl
  have hwithout : selection.without [] = selection := by rfl
  have hoptions : ∀ option ∈ [("$fields", some "title home.owner.name home author.name author.email"),
      ("$getAllFields", none), ("$sort", none), ("$q", none)],
        Compiler.option? request option.1 = option.2 := by decide +kernel
  simp only [List.forall_mem_cons] at hoptions
  obtain ⟨hfields, hall, hsort, hquery, -⟩ := hoptions
  have hstandard : compiler.collection.options = { Options.standard with defaultSort := none } := rfl
  have hselection : compiler.selectionOf request = .ok (some selection) := by
    unfold Compiler.selectionOf Compiler.wantsAllFields
    simp only [hstandard, Options.standard, hfields, hall, Option.some_or, readOrError, hread]
    rw [← hwithout]
    rfl
  have horder : compiler.orderOf request = .ok ⟨[], []⟩ := by
    unfold Compiler.orderOf Compiler.searchesText
    simp only [hstandard, Options.standard, hsort, hquery]
    rfl
  exact Compiler.compile_eq_ok_iff.2 ⟨some selection, joins, ⟨[], []⟩, hselection, rfl, horder, rfl⟩

/-- The owner is fetched with the home, the author for the joins, and nothing else of an author. -/
theorem homes_and_authors :
    ∃ query body, compiler.compile request = .ok query ∧ query.selection = some selection ∧
      query.textSearch = false ∧ query.project = some body ∧
      (∃ leaf ∈ flagPathsOf body, leaf <+: ["home", "owner"]) ∧
      (∃ leaf ∈ flagPathsOf body, leaf <+: ["title"]) ∧
      (¬ ∃ leaf ∈ flagPathsOf body, leaf <+: ["phone"]) ∧
      (∃ leaf ∈ flagPathsOf body, leaf <+: ["author"]) ∧
      ∀ leaf ∈ flagPathsOf body, ["author"] <+: leaf → leaf = ["author"] := by
  have hsearch : compiler.searchesText request = false := by decide +kernel
  have howner : Path.ofText "home.owner" = ["home", "owner"] := by decide
  have hauthor : Path.ofText "author" = ["author"] := Path.ofText_of_plain (by decide)
  have hleaves : leaves selection = [["title"], ["home", "owner", "name"], ["home"], ["author", "name"],
      ["author", "email"]] := by decide +kernel
  have hselection : (compiler.assembled request (some selection) joins ⟨[], []⟩).selection =
      some selection := rfl
  obtain ⟨body, hbody, -, hcovers, -, hjoins⟩ :=
    Compiler.project_fetches compile_eq hselection hsearch
  have htitle : (compiler.assembled request (some selection) joins ⟨[], []⟩).Fetches selection
      ["title"] := by
    refine .inl ⟨["title"], by simp [hleaves], ?_, List.prefix_refl _⟩
    simp [Compiler.assembled, joins, howner, hauthor]
  have hphone : ¬ (compiler.assembled request (some selection) joins ⟨[], []⟩).Fetches selection
      ["phone"] := by
    simp [Query.Fetches, Compiler.assembled, joins, howner, hauthor, hleaves]
  simp only [Compiler.assembled, joins, List.forall_mem_cons, howner, hauthor] at hjoins
  obtain ⟨hhome, hpeople, -⟩ := hjoins
  exact ⟨_, body, compile_eq, rfl, hsearch, hbody, hhome.1, (hcovers ⟨_, htitle⟩ _).2 htitle,
    fun h => hphone ((hcovers ⟨_, htitle⟩ _).1 h), hpeople.1, hpeople.2⟩

end PostsWithHomes

end DocQuery
