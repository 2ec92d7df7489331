import DocQuery.Proofs.Query.ForeignKeys
import DocQuery.Proofs.Query.SortKeys
import DocQuery.Proofs.Selection.Tokens

/-!
# Which collection a path belongs to

A path that is not declared goes on behind a reference if there is one above it
(`Collection.GoesBehind`).  Filters and joins ask for nothing else: the filter of such a path, and of no
other one, is decided in the other collection (`Compiler.exists_joined_iff`), and a selection of it, and
of no other one, has a join (`Join.plan_ne_nil_iff`).  A sort order first looks whether the nearest of
the declared fields above the path is no reference (`Collection.IsBelowOwn`), and then counts it to the
collection itself (`SortOrder.mem_afterJoins_iff`).  So the three agree unless a field is declared below
a reference (`Compiler.classified_alike_iff`).
-/

namespace DocQuery

open Selection

namespace Path

/-- A beginning of a path that is neither empty nor the path itself. -/
structure Above (front path : Path) : Prop where
  prefixes : front <+: path
  ne_nil : front ≠ []
  ne : front ≠ path

variable {front path : Path} {key : String}

theorem above_cons_iff : Above front (key :: path) ↔
    path ≠ [] ∧ (front = [key] ∨ ∃ rest, Above rest path ∧ front = key :: rest) := by
  constructor
  · rintro ⟨hbegin, hnil, hne⟩
    obtain ⟨first, rest, rfl⟩ := List.exists_cons_of_ne_nil hnil
    obtain ⟨rfl, hrest⟩ := List.cons_prefix_cons.1 hbegin
    refine ⟨?_, ?_⟩
    · rintro rfl
      exact hne (by rw [List.prefix_nil.1 hrest])
    · by_cases hempty : rest = []
      · exact .inl (by rw [hempty])
      · exact .inr ⟨rest, ⟨hrest, hempty, fun e => hne (by rw [e])⟩, rfl⟩
  · rintro ⟨hpath, rfl | ⟨rest, ⟨hbegin, hnil, hne⟩, rfl⟩⟩
    · exact ⟨by simp, by simp, by simpa using Ne.symm hpath⟩
    · exact ⟨by simpa using hbegin, by simp, by simpa using hne⟩

end Path

namespace Collection

variable {c : Collection} {path : Path}

/-! ### Above a path -/

theorem mem_beginnings {front : Path} : front ∈ beginnings path ↔ front.Above path := by
  induction path generalizing front with
  | nil => simpa [beginnings] using fun h : front.Above [] => h.ne_nil (List.prefix_nil.1 h.prefixes)
  | cons key rest ih =>
    rw [Path.above_cons_iff]
    cases rest with
    | nil => simp [beginnings]
    | cons next rest =>
      rw [beginnings, List.mem_append, List.mem_map, List.mem_singleton, or_comm]
      · simp only [ih, eq_comm]
        simp
      · simp

/-- The beginnings of a path come longest first. -/
theorem pairwise_beginnings (path : Path) :
    (beginnings path).Pairwise fun front other => other.length < front.length := by
  induction path with
  | nil => exact .nil
  | cons key rest ih =>
    cases rest with
    | nil => exact .nil
    | cons next rest =>
      rw [beginnings, List.pairwise_append, List.pairwise_map]
      · refine ⟨ih.imp (by simp), List.pairwise_singleton _ _, ?_⟩
        simp only [List.mem_map, List.mem_singleton]
        rintro _ ⟨front, hfront, rfl⟩ _ rfl
        simpa using List.length_pos_of_ne_nil (mem_beginnings.1 hfront).ne_nil
      · simp

/-- A path goes on behind a reference. -/
def GoesBehind (c : Collection) (path : Path) : Prop :=
  ∃ front : Path, front.Above path ∧ c.IsReference front

/-- Of the declared fields above a path the nearest one is no reference. -/
def IsBelowOwn (c : Collection) (path : Path) : Prop :=
  ∃ (front : Path) (info : FieldInfo), front.Above path ∧
    c.fields.lookup (Path.text front) = some info ∧ info.isReference = false ∧
    ∀ other : Path, other.Above path → front.length < other.length →
      c.fields.lookup (Path.text other) = none

theorem nearest?_eq_some_iff {info : FieldInfo} : c.nearest? (beginnings path) = some info ↔
    ∃ front : Path, front.Above path ∧ c.fields.lookup (Path.text front) = some info ∧
      ∀ other : Path, other.Above path → front.length < other.length →
        c.fields.lookup (Path.text other) = none := by
  rw [nearest?, List.findSome?_eq_some_iff]
  have hlengths := pairwise_beginnings path
  constructor
  · rintro ⟨before, front, after, hsplit, hinfo, hbefore⟩
    refine ⟨front, mem_beginnings.1 (by simp [hsplit]), hinfo, fun other hother hlonger => ?_⟩
    -- the longer ones come first
    have hmem := mem_beginnings.2 hother
    rw [hsplit, List.mem_append, List.mem_cons] at hmem
    rw [hsplit] at hlengths
    rcases hmem with hmem | rfl | hmem
    · exact hbefore other hmem
    · exact absurd hlonger (Nat.lt_irrefl _)
    · have hshorter := (List.pairwise_cons.1 (List.pairwise_append.1 hlengths).2.1).1 other hmem
      exact absurd hlonger (Nat.lt_asymm hshorter)
  · rintro ⟨front, hfront, hinfo, hnearest⟩
    obtain ⟨before, after, hsplit⟩ := List.append_of_mem (mem_beginnings.2 hfront)
    rw [hsplit] at hlengths
    refine ⟨before, front, after, hsplit, hinfo, fun other hother => hnearest other ?_ ?_⟩
    · exact mem_beginnings.1 (hsplit ▸ List.mem_append_left _ hother)
    · exact (List.pairwise_append.1 hlengths).2.2 other hother front List.mem_cons_self

section Undeclared

variable {p : String}

/-- A path that is not declared belongs to the collection if it is below a field of its own. -/
theorem recognizes_iff (h : c.info? p = none) :
    c.recognizes p = true ↔ c.IsBelowOwn (Path.ofText p) := by
  rw [recognizes, h, Option.isSome_none, Bool.false_or]
  constructor
  · intro hown
    split at hown
    · next info hfound =>
      obtain ⟨front, hfront, hinfo, hlonger⟩ := nearest?_eq_some_iff.1 hfound
      exact ⟨front, info, hfront, hinfo, by simpa using hown, hlonger⟩
    · cases hown
  · rintro ⟨front, info, hfront, hinfo, hown, hlonger⟩
    have hnearest := nearest?_eq_some_iff.2 ⟨front, hfront, hinfo, hlonger⟩
    rw [hnearest]
    simp [hown]

/-- Behind which reference a path goes on is found just if there is one. -/
theorem isSome_foreign?_iff (hparts : ∀ part ∈ Path.ofText p, part ≠ "") :
    (c.foreign? p).isSome = true ↔ c.GoesBehind (Path.ofText p) := by
  constructor
  · rw [Option.isSome_iff_exists]
    rintro ⟨⟨field, target, rest⟩, hforeign⟩
    obtain ⟨hfirst, hpath, -⟩ := foreign?_eq_some hforeign
    refine ⟨Path.ofText field, ⟨?_, Path.ofText_ne_nil field, ?_⟩, hfirst.reference⟩
    · rw [hpath]
      exact List.prefix_append _ _
    · rw [hpath]
      simpa using (Path.ofText_ne_nil rest)
  · rintro ⟨front, ⟨hbegin, hnil, hne⟩, hreference⟩
    cases hfound : c.reference? p with
    | none => exact absurd hreference (not_isReference_of_reference?_eq_none hfound hbegin hnil)
    | some reference =>
      obtain ⟨hfirst, hshape⟩ := reference?_eq_some hparts hfound
      cases hrest : reference.rest with
      | none =>
        -- then the whole path is the first reference, and nothing above it can be one
        rw [hrest] at hshape
        rw [hshape] at hbegin hne
        exact absurd hreference (hfirst.first front hbegin hnil hne)
      | some rest => simp [foreign?, hfound, hrest]

end Undeclared

end Collection

/-! ### Joins -/

namespace Join

variable {c : Collection} {selection : Selection} {p : String}

/-- A selection of nothing but a path has a join if the path goes on behind a reference. -/
theorem plan_ne_nil_iff (h : Fits named selection) (hleaves : leaves selection = [Path.ofText p])
    (hparts : ∀ part ∈ Path.ofText p, part ≠ "") :
    plan c selection ≠ [] ↔ c.GoesBehind (Path.ofText p) := by
  have hfields := fields_plan (c := c) h
  rw [asked, hleaves] at hfields
  rw [← Collection.isSome_foreign?_iff hparts]
  constructor
  · intro hne
    cases hsplit : c.split? (Path.ofText p) with
    | none =>
      rw [List.filterMap_cons_none hsplit] at hfields
      exact absurd (List.map_eq_nil_iff.1 hfields) hne
    | some asked =>
      obtain ⟨field, rest⟩ := asked
      obtain ⟨front, -, hfirst, hnil, hrest, hpath⟩ := Collection.split?_eq_some hsplit
      refine (Collection.isSome_foreign?_iff hparts).2 ⟨front, ⟨?_, hnil, ?_⟩, hfirst.reference⟩
      · rw [hpath]
        exact List.prefix_append _ _
      · rw [hpath]
        simpa using hrest
  · intro hforeign hnil
    obtain ⟨⟨field, target, rest⟩, hforeign⟩ := Option.isSome_iff_exists.1 hforeign
    obtain ⟨hfirst, hpath, -⟩ := Collection.foreign?_eq_some hforeign
    have hsplit := Collection.split?_append hfirst (Path.ofText_ne_nil field) (Path.ofText_ne_nil rest)
    rw [← hpath] at hsplit
    rw [hnil, List.filterMap_cons_some hsplit] at hfields
    simp [List.eraseDups_cons] at hfields

end Join

/-! ### Filters -/

namespace Compiler

variable {c : Compiler} {p : String}

/-- The filter of a path that is not declared is decided in another collection if the path goes on behind
a reference. -/
theorem exists_joined_iff (hparts : ∀ part ∈ Path.ofText p, part ≠ "")
    (hinfo : c.collection.info? p = none) (condition : Condition) (filter : Filter) :
    (∃ clause others, c.clauseFor p condition filter = some (.joined clause, others)) ↔
      c.collection.GoesBehind (Path.ofText p) := by
  rw [← Collection.isSome_foreign?_iff hparts, clauseFor, hinfo]
  cases c.collection.foreign? p with
  | none =>
    dsimp only
    split <;> simp
  | some found => simp [Filter.newJoin]

end Compiler

/-! ### Sort orders -/

namespace SortOrder

variable {c : Collection} {p : String} {requested : Option String} {keys : SortKeys} {order : SortOrder}

/-- A key of a path that is not declared is applied after the joins if the path goes on behind a
reference and is not below a field of the collection itself. -/
theorem mem_afterJoins_iff (hparts : ∀ part ∈ Path.ofText p, part ≠ "") (hinfo : c.info? p = none)
    (hkeys : effectiveKeys requested c false = .ok keys) (hp : p ∈ keys.map Prod.fst)
    (horder : compile requested c false = .ok order) :
    p ∈ order.afterJoins.map Prod.fst ↔
      c.GoesBehind (Path.ofText p) ∧ ¬ c.IsBelowOwn (Path.ofText p) := by
  obtain rfl : keys.foldl (addKey c false) ⟨[], []⟩ = order := by
    rw [compile, hkeys] at horder
    exact Except.ok.inj horder
  have hforeign : c.isForeign p = true ↔
      c.GoesBehind (Path.ofText p) ∧ ¬ c.IsBelowOwn (Path.ofText p) := by
    rw [Collection.isForeign, Bool.and_eq_true, Collection.isSome_foreign?_iff hparts, and_comm,
      Bool.not_eq_true', ← Bool.not_eq_true, Collection.recognizes_iff hinfo]
  rw [afterJoins_foldl, List.nil_append, ← hforeign]
  constructor
  · intro hmem
    obtain ⟨key, hkey, rfl⟩ := List.mem_map.1 hmem
    exact (List.mem_filter.1 hkey).2
  · intro hp'
    obtain ⟨key, hkey, rfl⟩ := List.mem_map.1 hp
    exact List.mem_map_of_mem (List.mem_filter.2 ⟨hkey, hp'⟩)

end SortOrder

/-! ### A path as a sort order -/

namespace SortKeys

variable {p : String}

theorem isPath_of_isKey (h : IsKey p) : IsPath p := by
  refine isPath_iff.2 ⟨fun c hc => ?_, fun hmem => h.2 "" hmem rfl⟩
  have hchar := h.1 c hc
  simp only [isKeyChar, isPathChar, Bool.or_eq_true] at hchar ⊢
  exact .inl hchar

/-- A key that can be written is a sort order of one path. -/
theorem read_of_isKey (h : IsKey p) : read p = .ok [(p, .ascending)] := by
  have hpath := isPath_of_isKey h
  have hwords : Text.words p = [p] := Text.words_of_isWord hpath.isWord
  refine read_eq_ok_iff.2 ⟨[(p, .ascending)], ?_, rfl⟩
  rw [hwords]
  exact .cons (.bare hpath) .nil

end SortKeys

/-! ### All three of them -/

/-- **Sort orders, filters and joins tell alike where a path belongs, unless a field is declared below a
reference.**  The filter of a path that is not declared is decided in another collection, and a selection
of the path has a join, in the same cases: if the path goes on behind a reference.  A sort order, of the
path alone or among others, leaves the path until after the joins in the same cases too, just if it is
not so that the path goes on behind a reference and the nearest of the declared fields above it is none. -/
theorem Compiler.classified_alike_iff (c : Compiler) {p : String} (hkey : IsKey p)
    (hinfo : c.collection.info? p = none) :
    (∀ condition filter,
      (∃ clause others, c.clauseFor p condition filter = some (.joined clause, others)) ↔
        c.collection.GoesBehind (Path.ofText p)) ∧
    (∀ selection, Fits named selection → leaves selection = [Path.ofText p] →
      (Join.plan c.collection selection ≠ [] ↔ c.collection.GoesBehind (Path.ofText p))) ∧
    SortKeys.read p = .ok [(p, .ascending)] ∧
    ∀ requested keys order, SortOrder.effectiveKeys requested c.collection false = .ok keys →
      p ∈ keys.map Prod.fst → SortOrder.compile requested c.collection false = .ok order →
        ((p ∈ order.afterJoins.map Prod.fst ↔ c.collection.GoesBehind (Path.ofText p)) ↔
          ¬(c.collection.GoesBehind (Path.ofText p) ∧ c.collection.IsBelowOwn (Path.ofText p))) := by
  refine ⟨exists_joined_iff hkey.2 hinfo, fun selection h hleaves => Join.plan_ne_nil_iff h hleaves hkey.2,
    SortKeys.read_of_isKey hkey, fun requested keys order hkeys hp horder => ?_⟩
  rw [SortOrder.mem_afterJoins_iff hkey.2 hinfo hkeys hp horder]
  tauto

/-! ### A home that is declared below an author -/

namespace PostsWithHomelyAuthors

def posts : Collection :=
  ⟨[("author", ⟨.objectId, some "people", false⟩), ("author.home", ⟨.document, none, false⟩)], [],
    .standard⟩

def compiler : Compiler := ⟨[("posts", posts)], "posts", posts, []⟩

theorem isKey_paths : ∀ p ∈ ["author.name", "author.home.city"], IsKey p := by
  have hchars : ["author.name", "author.home.city"].all (·.toList.all isKeyChar) = true := by
    decide +kernel
  have hparts : ∀ p ∈ ["author.name", "author.home.city"], "" ∉ Path.ofText p := by decide +kernel
  refine fun p hp => ⟨List.all_eq_true.1 (List.all_eq_true.1 hchars p hp), fun part hpart hempty => ?_⟩
  exact hparts p hp (hempty ▸ hpart)

/-- The name of an author is filtered by, joined and sorted by in the other collection. -/
theorem name_sorted_after_joins :
    IsKey "author.name" ∧ posts.info? "author.name" = none ∧
      (∃ clause others, compiler.clauseFor "author.name" (Condition.read "Ann") .empty =
        some (.joined clause, others)) ∧
      Join.plan posts [("author.name", .marker included)] ≠ [] ∧
      ∃ order, SortOrder.compile (some "author.name") posts false = .ok order ∧
        "author.name" ∈ order.afterJoins.map Prod.fst := by
  have hkey : IsKey "author.name" := isKey_paths _ (by simp)
  have hinfo : posts.info? "author.name" = none := by decide
  have hpath : Path.ofText "author.name" = ["author", "name"] := by decide
  have habove : ∀ front : Path, front.Above ["author", "name"] → front = ["author"] := by
    intro front hfront
    simpa [Path.above_cons_iff] using hfront
  have hbehind : posts.GoesBehind (Path.ofText "author.name") :=
    ⟨["author"], ⟨by simp [hpath], by simp, by simp [hpath]⟩, by decide⟩
  have hown : ¬ posts.IsBelowOwn (Path.ofText "author.name") := by
    rw [hpath]
    rintro ⟨front, info, hfront, hlookup, hown, -⟩
    rw [habove front hfront] at hlookup
    obtain rfl : ⟨.objectId, some "people", false⟩ = info := by
      simpa [posts, Path.text] using hlookup
    cases hown
  have hselection : Fits named [("author.name", .marker included)] := by
    simpa [Fits, has_marker_iff, named] using hkey.2
  obtain ⟨hfilter, hplan, hread, hsort⟩ := Compiler.classified_alike_iff compiler hkey hinfo
  have hkeys : SortOrder.effectiveKeys (some "author.name") posts false =
      .ok [("author.name", .ascending)] := by
    rw [SortOrder.effectiveKeys, hread]
    rfl
  obtain ⟨order, horder⟩ : ∃ order, SortOrder.compile (some "author.name") posts false = .ok order := by
    rw [SortOrder.compile, hkeys]
    exact ⟨_, rfl⟩
  refine ⟨hkey, hinfo, (hfilter _ _).2 hbehind, (hplan _ hselection ?_).2 hbehind, order, horder, ?_⟩
  · simp [leaves, Node.leaves]
  · exact ((hsort _ _ _ hkeys (by simp) horder).2 fun h => hown h.2).2 hbehind

/-- The city where an author lives is filtered by and joined in the other collection, but sorted by in
this one. -/
theorem city_sorted_before_joins :
    IsKey "author.home.city" ∧ posts.info? "author.home.city" = none ∧
      (∃ clause others, compiler.clauseFor "author.home.city" (Condition.read "Rome") .empty =
        some (.joined clause, others)) ∧
      (Join.plan posts [("author.home.city", .marker included)]).map Join.field = ["author"] ∧
      SortOrder.compile (some "author.home.city") posts false =
        .ok ⟨[("author.home.city", .ascending)], []⟩ := by
  have hkey : IsKey "author.home.city" := isKey_paths _ (by simp)
  have hinfo : posts.info? "author.home.city" = none := by decide
  have hbehind : posts.GoesBehind (Path.ofText "author.home.city") :=
    ⟨["author"], ⟨by decide, by simp, by decide⟩, by decide⟩
  have hplan : (Join.plan posts [("author.home.city", .marker included)]).map Join.field = ["author"] := by
    rfl
  have hrecognized : posts.recognizes "author.home.city" = true := by decide +kernel
  have horder : SortOrder.compile (some "author.home.city") posts false =
      .ok ⟨[("author.home.city", .ascending)], []⟩ := by
    rw [SortOrder.compile, SortOrder.effectiveKeys, SortKeys.read_of_isKey hkey]
    refine congrArg Except.ok ?_
    simp [SortOrder.addKey, hrecognized]
  exact ⟨hkey, hinfo, (Compiler.exists_joined_iff hkey.2 hinfo _ _).2 hbehind, hplan, horder⟩

end PostsWithHomelyAuthors

end DocQuery
