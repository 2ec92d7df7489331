import DocQuery.Proofs.Outcome
import DocQuery.Answer.Basic

/-!
# What a compiled query is made of

A request is compiled if its selection and its order can be read and its joins can be planned; the query
is then made of these (`Compiler.compile_eq_ok_iff`).  `Compiler.Means` lists the parts of the query that
a request is compiled to, `Querier.compile_eq_ok` reads them off a request that was compiled.
-/

namespace DocQuery

namespace Compiler

variable {c : Compiler} {request : Request} {query : Query}

/-- A compiler stands for a collection of the catalog and its protected fields. -/
theorem new_eq_ok_iff {catalog : Catalog} {name : String} {c : Compiler} :
    Compiler.new catalog name = .ok c ↔
      c.catalog = catalog ∧ c.name = name ∧ catalog.find? name = some c.collection ∧
      c.collection.protectedSelection = .ok c.protectedFields := by
  unfold Compiler.new
  cases hcollection : catalog.find? name with
  | none => simp
  | some collection =>
    simp only [Outcome.bind_eq_ok_iff, Except.ok.injEq, Option.some.injEq]
    constructor
    · rintro ⟨hidden, hhidden, rfl⟩
      exact ⟨rfl, rfl, rfl, hhidden⟩
    · rintro ⟨rfl, rfl, rfl, hhidden⟩
      exact ⟨_, hhidden, rfl⟩

/-- A request asks for documents by their text. -/
def searchesText (c : Compiler) (request : Request) : Bool :=
  (option? request c.collection.options.queryKey).isSome && c.catalog.hasTextIndex c.name

/-- The joins for what a request selects. -/
def joinsFor (c : Compiler) : Option Selection → Except QueryError (List Join)
  | some selection => c.planJoins selection
  | none => .ok []

/-- The order that a request asks for. -/
def orderOf (c : Compiler) (request : Request) :=
  SortOrder.compile (option? request c.collection.options.sortKey) c.collection
    (c.searchesText request)

/-- The query for a request, made of what was read from it. -/
def assembled (c : Compiler) (request : Request) (selection : Option Selection) (joins : List Join)
    (order : SortOrder) : Query where
  collection := c.name
  filter := c.filterOf request
  order := order
  selection := selection
  project := c.projectDocument selection joins (c.searchesText request)
  joins := joins
  unwind := c.unwindOf request
  page := (positive? request c.collection.options.pageKey).getD 1
  limit := (positive? request c.collection.options.limitKey).getD c.collection.options.defaultLimit
  textSearch := c.searchesText request

theorem compile_eq_ok_iff : c.compile request = .ok query ↔
    ∃ selection joins order, c.selectionOf request = .ok selection ∧
      c.joinsFor selection = .ok joins ∧ c.orderOf request = .ok order ∧
        c.assembled request selection joins order = query := by
  unfold compile
  dsimp only
  rw [Outcome.bind_eq_ok_iff]
  refine exists_congr fun selection => ?_
  cases selection with
  | none =>
    simp only [Outcome.bind_eq_ok_iff, Outcome.mapError_eq_ok_iff, Except.ok.injEq, exists_and_left,
      joinsFor]
    rfl
  | some selected =>
    simp only [Outcome.bind_eq_ok_iff, Outcome.mapError_eq_ok_iff, Except.ok.injEq, exists_and_left,
      joinsFor]
    rfl

end Compiler

/-- The parts of the query that a request means. -/
structure Compiler.Means (c : Compiler) (request : Request) (query : Query) : Prop where
  collection : query.collection = c.name
  filter : query.filter = c.filterOf request
  selection : c.selectionOf request = .ok query.selection
  joinsOfSelection : ∀ selection, query.selection = some selection →
    c.planJoins selection = .ok query.joins
  joinsOfNone : query.selection = none → query.joins = []
  project : query.project = c.projectDocument query.selection query.joins query.textSearch

theorem Compiler.means_of_compile {c : Compiler} {request : Request} {query : Query}
    (h : c.compile request = .ok query) : c.Means request query := by
  obtain ⟨selection, joins, order, hselection, hjoins, -, rfl⟩ := compile_eq_ok_iff.1 h
  refine ⟨rfl, rfl, hselection, ?_, ?_, rfl⟩
  · rintro selected (rfl : selection = some selected)
    exact hjoins
  · rintro (rfl : selection = none)
    exact (Except.ok.inj hjoins).symm

namespace Querier

variable {m : Type → Type} {q : Querier m} {request : Request} {query : Query}

/-- A request is compiled against the collection of the querier. -/
theorem compile_eq_ok (h : q.compile request = .ok query) :
    ∃ c, Compiler.new q.catalog q.name = .ok c ∧ c.Means request query := by
  obtain ⟨c, hc, h⟩ := Outcome.bind_eq_ok_iff.1 h
  exact ⟨c, hc, Compiler.means_of_compile h⟩

end Querier

end DocQuery
