import DocQuery.Proofs.Filter.Rendering
import DocQuery.Proofs.Filter.Slots

/-!
# Filters without slots

Which slot a joined clause has depends on what was added before it.  Apart from the slots, every step of
building a filter only adds something behind what is there, so the filter of a request is put together
from the filters of its single pairs (`Compiler.unslotted_filterOf`).  The slots do not matter in the end:
the ids that a clause gets belong to its collection and its condition, and with these ids written into
the clauses a filter is rendered as it is with the ids filed (`Filter.toDocument_settled`).
-/

namespace DocQuery

/-! ### Clauses -/

namespace Clause

mutual

/-- A clause with something else in place of its joined clauses. -/
def mapJoins (f : JoinedClause → Clause) : Clause → Clause
  | .field path condition => .field path condition
  | .joined clause => f clause
  | .all clauses => .all (mapJoinsOf f clauses)
  | .any clauses => .any (mapJoinsOf f clauses)

def mapJoinsOf (f : JoinedClause → Clause) : List Clause → List Clause
  | [] => []
  | clause :: rest => clause.mapJoins f :: mapJoinsOf f rest

end

/-- A clause in which no slot counts: all of them are the same. -/
def unslotted : Clause → Clause := mapJoins fun clause => .joined { clause with slot := 0 }

/-- A clause with the ids of its joined clauses written into it. -/
def settled (ids : JoinedClause → List Value) : Clause → Clause :=
  mapJoins fun clause => .field clause.field (.document [("$in", .array (ids clause))])

variable {f g : JoinedClause → Clause} {ids : JoinedClause → List Value}

theorem mapJoinsOf_eq_map (f : JoinedClause → Clause) (clauses : List Clause) :
    mapJoinsOf f clauses = clauses.map (mapJoins f) := by
  induction clauses with
  | nil => rfl
  | cons clause rest ih => rw [mapJoinsOf, ih, List.map_cons]

theorem mapJoins_mapJoins (clause : Clause) :
    (clause.mapJoins f).mapJoins g = clause.mapJoins fun joined => (f joined).mapJoins g := by
  have hlist : ∀ clauses : List Clause,
      (∀ clause ∈ clauses, (clause.mapJoins f).mapJoins g =
        clause.mapJoins fun joined => (f joined).mapJoins g) →
      mapJoinsOf g (mapJoinsOf f clauses) =
        mapJoinsOf (fun joined => (f joined).mapJoins g) clauses := by
    intro clauses ih
    rw [mapJoinsOf_eq_map, mapJoinsOf_eq_map, mapJoinsOf_eq_map, List.map_map]
    exact List.map_congr_left ih
  induction clause using ind with
  | field path condition => rfl
  | joined clause => rfl
  | all clauses ih => rw [mapJoins, mapJoins, mapJoins, hlist clauses ih]
  | any clauses ih => rw [mapJoins, mapJoins, mapJoins, hlist clauses ih]

/-- The ids do not depend on the slots. -/
def SlotFree (ids : JoinedClause → List Value) : Prop :=
  ∀ clause : JoinedClause, ids { clause with slot := 0 } = ids clause

theorem settled_unslotted (hids : SlotFree ids) (clause : Clause) :
    clause.unslotted.settled ids = clause.settled ids := by
  unfold unslotted settled
  rw [mapJoins_mapJoins]
  congr 1
  funext joined
  rw [mapJoins, hids]

theorem joins_unslotted (clause : Clause) :
    clause.unslotted.joins = clause.joins.map fun joined => { joined with slot := 0 } := by
  have hlist : ∀ clauses : List Clause,
      (∀ clause ∈ clauses, clause.unslotted.joins =
        clause.joins.map fun joined => { joined with slot := 0 }) →
      joinsOf (clauses.map unslotted) =
        (joinsOf clauses).map fun joined => { joined with slot := 0 } := by
    intro clauses ih
    induction clauses with
    | nil => rfl
    | cons clause rest ihrest =>
      rw [List.forall_mem_cons] at ih
      rw [List.map_cons, joinsOf, joinsOf, ih.1, ihrest ih.2, List.map_append]
  induction clause using ind with
  | field path condition => rfl
  | joined clause => rfl
  | all clauses ih =>
    rw [unslotted, mapJoins, mapJoinsOf_eq_map, joins, joins]
    exact hlist clauses ih
  | any clauses ih =>
    rw [unslotted, mapJoins, mapJoinsOf_eq_map, joins, joins]
    exact hlist clauses ih

theorem joinsOf_unslotted (clauses : List Clause) :
    joinsOf (clauses.map unslotted) =
      (joinsOf clauses).map fun joined => { joined with slot := 0 } := by
  have h := joins_unslotted (.all clauses)
  rwa [unslotted, mapJoins, mapJoinsOf_eq_map, joins, joins] at h

/-- With its ids written into it a clause is rendered as it is with the ids filed. -/
theorem toDocument_settled {resolved : ResolvedIds} (other : ResolvedIds) (clause : Clause)
    (h : ∀ joined ∈ clause.joins, resolved.get joined.slot = ids joined) :
    (clause.settled ids).toDocument other = clause.toDocument resolved := by
  have hvalues : ∀ clauses : List Clause,
      (∀ clause ∈ clauses, (∀ joined ∈ clause.joins, resolved.get joined.slot = ids joined) →
        (clause.settled ids).toDocument other = clause.toDocument resolved) →
      (∀ joined ∈ joinsOf clauses, resolved.get joined.slot = ids joined) →
      toValues other (clauses.map (settled ids)) = toValues resolved clauses := by
    intro clauses ih h
    rw [toValues_eq_map, toValues_eq_map, List.map_map (f := settled ids)]
    refine congrArg (List.map Value.document) (List.map_congr_left fun clause hc => ?_)
    exact ih clause hc fun joined hj => h joined (mem_joinsOf hc joined hj)
  have hall : ∀ clauses : List Clause, settled ids (.all clauses) = .all (clauses.map (settled ids)) :=
    fun clauses => congrArg Clause.all (mapJoinsOf_eq_map _ clauses)
  have hany : ∀ clauses : List Clause, settled ids (.any clauses) = .any (clauses.map (settled ids)) :=
    fun clauses => congrArg Clause.any (mapJoinsOf_eq_map _ clauses)
  induction clause using ind with
  | field path condition => rfl
  | joined clause =>
    rw [settled, mapJoins, toDocument, toDocument, h clause (by simp [joins])]
  | all clauses ih =>
    rw [joins] at h
    by_cases hone : ∃ only, clauses = [only]
    · obtain ⟨only, rfl⟩ := hone
      rw [hall, List.map_singleton, toDocument, toDocument]
      exact ih only (by simp) fun joined hj => h joined (mem_joinsOf (by simp) joined hj)
    · have hne : ∀ only, clauses ≠ [only] := fun only e => hone ⟨only, e⟩
      have hne' : ∀ only, clauses.map (settled ids) ≠ [only] := by
        intro only e
        obtain ⟨first, hfirst, -⟩ := List.map_eq_singleton_iff.1 e
        exact hne first hfirst
      rw [hall, toDocument_all_of_ne_singleton _ hne', toDocument_all_of_ne_singleton _ hne,
        hvalues clauses ih h]
  | any clauses ih =>
    rw [joins] at h
    rw [hany, toDocument, toDocument, hvalues clauses ih h]

end Clause

/-! ### Filters -/

namespace Filter

/-- A filter in which no slot counts. -/
def unslotted (filter : Filter) : Filter :=
  ⟨filter.all.map Clause.unslotted, filter.any.map Clause.unslotted, filter.text, 0⟩

/-- A filter with the ids of its joined clauses written into it. -/
def settled (ids : JoinedClause → List Value) (filter : Filter) : Filter :=
  ⟨filter.all.map (Clause.settled ids), filter.any.map (Clause.settled ids), filter.text, 0⟩

/-- Two filters whose clauses are rendered alike are rendered alike. -/
theorem toDocument_congr {filter other : Filter} {resolved resolved' : ResolvedIds}
    (hall : filter.all.map (Clause.toDocument resolved) = other.all.map (Clause.toDocument resolved'))
    (hany : filter.any.map (Clause.toDocument resolved) = other.any.map (Clause.toDocument resolved'))
    (htext : filter.text = other.text) :
    filter.toDocument resolved = other.toDocument resolved' := by
  have hgathered : filter.gathered resolved = other.gathered resolved' := by
    unfold gathered
    rw [← List.foldl_map (f := Clause.toDocument resolved), hall, List.foldl_map]
  have hfields : filter.anyFields resolved = other.anyFields resolved' := by
    have hempty : filter.any.isEmpty = other.any.isEmpty := by
      rw [← List.isEmpty_map (f := Clause.toDocument resolved), hany, List.isEmpty_map]
    rw [anyFields, anyFields, Clause.toValues_eq_map, Clause.toValues_eq_map, hany, hempty]
  rw [toDocument_eq, toDocument_eq, hgathered, hfields, textFields, textFields, apartFields,
    apartFields, hgathered, htext]

variable {ids : JoinedClause → List Value}

theorem settled_unslotted (hids : Clause.SlotFree ids) (filter : Filter) :
    filter.unslotted.settled ids = filter.settled ids := by
  have hclause : Clause.settled ids ∘ Clause.unslotted = Clause.settled ids :=
    funext (Clause.settled_unslotted hids)
  simp only [unslotted, settled, List.map_map, hclause]

theorem mem_settled_iff {filter : Filter} {clause : Clause} :
    clause ∈ (filter.settled ids).all ++ (filter.settled ids).any ↔
      ∃ first ∈ filter.all ++ filter.any, first.settled ids = clause := by
  rw [← List.mem_map, List.map_append]
  rfl

theorem joinedClauses_unslotted (filter : Filter) :
    filter.unslotted.joinedClauses =
      filter.joinedClauses.map fun joined => { joined with slot := 0 } := by
  rw [joinedClauses, joinedClauses, ← Clause.joinsOf_unslotted, List.map_append]
  rfl

theorem toDocument_settled {filter : Filter} {resolved : ResolvedIds} (other : ResolvedIds)
    (h : ∀ joined ∈ filter.joinedClauses, resolved.get joined.slot = ids joined) :
    (filter.settled ids).toDocument other = filter.toDocument resolved := by
  have hclause : ∀ clause ∈ filter.all ++ filter.any,
      (clause.settled ids).toDocument other = clause.toDocument resolved := by
    intro clause hc
    exact clause.toDocument_settled other fun joined hj =>
      h joined (Clause.mem_joinsOf hc joined hj)
  rw [List.forall_mem_append] at hclause
  refine toDocument_congr ?_ ?_ rfl
  · rw [settled, List.map_map]
    exact List.map_congr_left hclause.1
  · rw [settled, List.map_map]
    exact List.map_congr_left hclause.2

/-! ### Steps -/

/-- One filter behind another one, for filters without slots. -/
instance : Append Filter :=
  ⟨fun filter other =>
    ⟨filter.all ++ other.all, filter.any ++ other.any, other.text.or filter.text, 0⟩⟩

@[simp] theorem all_append (filter other : Filter) :
    (filter ++ other).all = filter.all ++ other.all := rfl

@[simp] theorem any_append (filter other : Filter) :
    (filter ++ other).any = filter.any ++ other.any := rfl

@[simp] theorem text_append (filter other : Filter) :
    (filter ++ other).text = other.text.or filter.text := rfl

theorem append_assoc (first second third : Filter) :
    first ++ second ++ third = first ++ (second ++ third) := by
  show (⟨_, _, _, 0⟩ : Filter) = ⟨_, _, _, 0⟩
  simp [Option.or_assoc]

/-- A step that only adds something behind what is there. -/
def Appends (step : Filter → Filter) : Prop :=
  ∀ filter : Filter, (step filter).unslotted = filter.unslotted ++ (step .empty).unslotted

theorem appends_id : Appends id := by
  intro filter
  show (⟨_, _, _, 0⟩ : Filter) = ⟨_, _, _, 0⟩
  simp [unslotted, empty]

theorem appends_text (text : String) :
    Appends fun filter => { filter with text := some text } := by
  intro filter
  show (⟨_, _, _, 0⟩ : Filter) = ⟨_, _, _, 0⟩
  simp [unslotted, empty]

theorem Appends.comp {first second : Filter → Filter} (hfirst : Appends first)
    (hsecond : Appends second) : Appends fun filter => second (first filter) := by
  intro filter
  rw [hsecond (first filter), hsecond (first .empty), hfirst filter, append_assoc]

/-- A clause that is made for the filter in front of it, from which it takes nothing but a slot. -/
structure Makes (make : Filter → Clause × Filter) : Prop where
  clause : ∀ filter, (make filter).1.unslotted = (make .empty).1.unslotted
  filter : ∀ filter, (make filter).2.unslotted = filter.unslotted

theorem makes_clause (clause : Clause) : Makes fun filter => (clause, filter) where
  clause _ := rfl
  filter _ := rfl

theorem makes_newJoin (field target : String) (condition : Document) :
    Makes fun filter => filter.newJoin field target condition where
  clause _ := rfl
  filter _ := rfl

variable {make : Filter → Clause × Filter}

theorem Makes.appends_addAll (h : Makes make) :
    Appends fun filter => (make filter).2.addAll (make filter).1 := by
  have hadd : ∀ filter : Filter, ((make filter).2.addAll (make filter).1).unslotted =
      filter.unslotted ++ ⟨[(make .empty).1.unslotted], [], none, 0⟩ := by
    intro filter
    rw [← h.filter filter, ← h.clause filter]
    show (⟨_, _, _, 0⟩ : Filter) = ⟨_, _, _, 0⟩
    simp [unslotted, addAll]
  intro filter
  rw [hadd filter, hadd .empty]
  rfl

theorem Makes.appends_addAny (h : Makes make) :
    Appends fun filter => (make filter).2.addAny (make filter).1 := by
  have hadd : ∀ filter : Filter, ((make filter).2.addAny (make filter).1).unslotted =
      filter.unslotted ++ ⟨[], [(make .empty).1.unslotted], none, 0⟩ := by
    intro filter
    rw [← h.filter filter, ← h.clause filter]
    show (⟨_, _, _, 0⟩ : Filter) = ⟨_, _, _, 0⟩
    simp [unslotted, addAny]
  intro filter
  rw [hadd filter, hadd .empty]
  rfl

/-- Steps one after the other add what each of them adds. -/
theorem unslotted_foldl {α : Type} {step : Filter → α → Filter}
    (hstep : ∀ x, Appends fun filter => step filter x) (xs : List α) (filter : Filter) :
    (xs.foldl step filter).unslotted =
      (xs.map fun x => (step .empty x).unslotted).foldl (· ++ ·) filter.unslotted := by
  induction xs generalizing filter with
  | nil => rfl
  | cons x rest ih => rw [List.foldl_cons, ih, hstep x filter, List.map_cons, List.foldl_cons]

theorem all_foldl_append (filter : Filter) (parts : List Filter) :
    (parts.foldl (· ++ ·) filter).all = filter.all ++ parts.flatMap Filter.all := by
  induction parts generalizing filter with
  | nil => simp
  | cons part rest ih => simp [ih]

theorem any_foldl_append (filter : Filter) (parts : List Filter) :
    (parts.foldl (· ++ ·) filter).any = filter.any ++ parts.flatMap Filter.any := by
  induction parts generalizing filter with
  | nil => simp
  | cons part rest ih => simp [ih]

theorem text_foldl_append {filter : Filter} {parts : List Filter}
    (h : ∀ part ∈ parts, part.text = none) :
    (parts.foldl (· ++ ·) filter).text = filter.text := by
  induction parts generalizing filter with
  | nil => rfl
  | cons part rest ih =>
    rw [List.forall_mem_cons] at h
    rw [List.foldl_cons, ih h.2, text_append, h.1, Option.none_or]

theorem appends_foldl {α : Type} {step : Filter → α → Filter}
    (hstep : ∀ x, Appends fun filter => step filter x) (xs : List α) :
    Appends fun filter => xs.foldl step filter := by
  induction xs with
  | nil => exact appends_id
  | cons x rest ih => exact (hstep x).comp ih

end Filter

/-! ### Requests -/

namespace Search

variable (collection : Collection)

theorem appends_addField (patterns : List String) (field : String) :
    Filter.Appends fun filter => addField collection patterns filter field := by
  unfold addField
  cases collection.foreign? field with
  | none => exact (Filter.makes_clause _).appends_addAny
  | some reference =>
    obtain ⟨here, target, rest⟩ := reference
    exact (Filter.makes_newJoin here target _).appends_addAny

theorem appends_freeText (query : String) (hasIndex : Bool) :
    Filter.Appends (freeText query hasIndex collection) := by
  unfold freeText
  cases hasIndex with
  | true => exact Filter.appends_text query
  | false =>
    cases (Text.words query).map Pattern.escape with
    | nil => exact Filter.appends_id
    | cons pattern rest =>
      exact Filter.appends_foldl (appends_addField collection (pattern :: rest)) _

theorem appends_normalized (text : String) : Filter.Appends (normalized text collection) := by
  unfold normalized
  dsimp only
  split
  · exact Filter.appends_id
  · split
    · exact Filter.appends_id
    · exact (Filter.makes_clause _).appends_addAll

end Search

namespace Compiler

variable (c : Compiler)

/-- The clause for a key is the same in front of every filter, but for its slot. -/
theorem clauseFor_eq (key : String) (condition : Condition) :
    (∀ filter, c.clauseFor key condition filter = none) ∨
      ∃ make, Filter.Makes make ∧
        ∀ filter, c.clauseFor key condition filter = some (make filter) := by
  unfold clauseFor
  cases c.collection.info? key with
  | some info => exact .inr ⟨_, Filter.makes_clause _, fun _ => rfl⟩
  | none =>
    cases c.collection.foreign? key with
    | some reference => exact .inr ⟨_, Filter.makes_newJoin _ _ _, fun _ => rfl⟩
    | none =>
      dsimp only
      split
      · exact .inr ⟨_, Filter.makes_clause _, fun _ => rfl⟩
      · exact .inl fun _ => rfl

theorem appends_addPair (pair : String × String) :
    Filter.Appends fun filter => c.addPair filter pair := by
  unfold addPair
  split
  · exact Filter.appends_id
  · rcases c.clauseFor_eq pair.1 (Condition.read pair.2) with hnone | ⟨make, hmake, hsome⟩
    · simp only [hnone]
      exact Filter.appends_id
    · simp only [hsome]
      split
      · exact hmake.appends_addAny
      · exact hmake.appends_addAll

/-- A filter with the searches of a request, for text and for normalized text. -/
def addSearches (c : Compiler) (request : Request) (filter : Filter) : Filter :=
  let options := c.collection.options
  let filter :=
    match option? request options.queryKey with
    | some query => Search.freeText query (c.catalog.hasTextIndex c.name) c.collection filter
    | none => filter
  match option? request options.searchKey with
  | some text => Search.normalized text c.collection filter
  | none => filter

theorem appends_addSearches (request : Request) : Filter.Appends (c.addSearches request) := by
  unfold addSearches
  dsimp only
  cases option? request c.collection.options.queryKey with
  | none =>
    cases option? request c.collection.options.searchKey with
    | none => exact Filter.appends_id
    | some text => exact Search.appends_normalized c.collection text
  | some query =>
    have hquery := Search.appends_freeText c.collection query (c.catalog.hasTextIndex c.name)
    cases option? request c.collection.options.searchKey with
    | none => exact hquery
    | some text => exact hquery.comp (Search.appends_normalized c.collection text)

/-- The filter of one pair of a request. -/
abbrev pairFilter (c : Compiler) (pair : String × String) : Filter :=
  (c.addPair .empty pair).unslotted

/-- The filter of a request is put together from those of its pairs and its searches. -/
theorem unslotted_filterOf (request : Request) :
    (c.filterOf request).unslotted =
      (request.map c.pairFilter).foldl (· ++ ·) Filter.empty.unslotted ++
        (c.addSearches request .empty).unslotted := by
  have hfilter : c.filterOf request = c.addSearches request (request.foldl c.addPair .empty) := rfl
  rw [hfilter, c.appends_addSearches request, Filter.unslotted_foldl c.appends_addPair]

end Compiler

end DocQuery
