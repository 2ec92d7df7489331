import DocQuery.Proofs.Outcome
import DocQuery.Proofs.Selection.Without
import DocQuery.Proofs.Selection.Written
import DocQuery.Query.Compile

/-!
# The joins of a selection

Each join stands at the first reference on the way to something selected, and asks the other
collection for nothing but what is selected behind that reference (`Join.Planned`).  Two references of
which one is a beginning of the other cannot both be the first one, so the fields of different joins
are apart (`apart_of_planned`).  Once the joins are stripped, what they ask for is also apart from what
the other collection protects (`Compiler.planned_of_planJoins`).
-/

namespace DocQuery

/-! ### First references -/

namespace Collection

variable {c : Collection}

/-- A path that is declared to hold ids of documents. -/
def IsReference (c : Collection) (path : Path) : Prop :=
  ∃ info target, c.fields.lookup (Path.text path) = some info ∧ info.target = some target

/-- A reference that no reference leads to. -/
structure IsFirstReference (c : Collection) (path : Path) : Prop where
  reference : c.IsReference path
  first : ∀ shorter, shorter <+: path → shorter ≠ [] → shorter ≠ path → ¬ c.IsReference shorter

/-- Of two first references none is the beginning of the other one. -/
theorem IsFirstReference.eq_or_apart {path other : Path} (h : c.IsFirstReference path)
    (hother : c.IsFirstReference other) (hpath : path ≠ []) (hne : other ≠ []) :
    path = other ∨ Path.Apart path other := by
  by_cases heq : path = other
  · exact .inl heq
  · rcases Path.apart_or path other with hapart | hbegin | hbegin
    · exact .inr hapart
    · exact absurd h.reference (hother.first path hbegin hpath heq)
    · exact absurd hother.reference (h.first other hbegin hne (Ne.symm heq))

theorem referenceFrom_eq_some {taken rest : Path} {reference : Reference}
    (h : c.referenceFrom taken rest = some reference) :
    ∃ front back, rest = front ++ back ∧ front ≠ [] ∧
      reference.field = Path.text (taken ++ front) ∧ reference.rest = restOf back ∧
      c.IsReference (taken ++ front) ∧
      ∀ shorter, shorter <+: front → shorter ≠ [] → shorter ≠ front →
        ¬ c.IsReference (taken ++ shorter) := by
  induction rest generalizing taken with
  | nil => cases h
  | cons key rest ih =>
    unfold referenceFrom at h
    dsimp only at h
    split at h
    · next info target hfound =>
      obtain rfl := Option.some.inj h
      refine ⟨[key], rest, rfl, by simp, rfl, rfl, ?_, ?_⟩
      · obtain ⟨found, hlookup, hmap⟩ := Option.bind_eq_some_iff.1 hfound
        obtain ⟨name, hname, -⟩ := Option.map_eq_some_iff.1 hmap
        exact ⟨found, name, hlookup, hname⟩
      · intro shorter hbegin hne hshorter
        rcases List.prefix_cons_iff.1 hbegin with rfl | ⟨tail, rfl, htail⟩
        · exact absurd rfl hne
        · exact absurd (by rw [List.prefix_nil.1 htail]) hshorter
    · next hnone =>
      have hkey : ¬ c.IsReference (taken ++ [key]) := by
        rintro ⟨info, target, hlookup, htarget⟩
        rw [hlookup] at hnone
        simp [htarget] at hnone
      obtain ⟨front, back, rfl, hfront, hfield, hrest, hreference, hfirst⟩ := ih h
      have hassoc : ∀ path : Path, taken ++ [key] ++ path = taken ++ key :: path := by simp
      rw [hassoc] at hfield hreference
      refine ⟨key :: front, back, rfl, by simp, hfield, hrest, hreference, ?_⟩
      intro shorter hbegin hne hshorter
      obtain ⟨first, tail, rfl⟩ := List.exists_cons_of_ne_nil hne
      obtain ⟨rfl, htail⟩ := List.cons_prefix_cons.1 hbegin
      by_cases hnil : tail = []
      · rwa [hnil]
      · rw [← hassoc]
        exact hfirst tail htail hnil fun e => hshorter (by rw [e])

/-- A path that leads through a reference leads through a first one. -/
theorem isFirstReference_of_reference? {path : String} {reference : Reference}
    (h : c.reference? path = some reference) : c.IsFirstReference (Path.ofText reference.field) := by
  obtain ⟨front, back, hpath, hfront, hfield, -, hreference, hfirst⟩ := referenceFrom_eq_some h
  rw [List.nil_append] at hfield hreference
  have hplain : ∀ part ∈ front, Path.Plain part := by
    intro part hpart
    exact Path.plain_of_mem_ofText (s := path) (hpath ▸ List.mem_append_left back hpart)
  have hof : Path.ofText reference.field = front := by
    rw [hfield]
    exact Path.ofText_text hfront hplain
  rw [hof]
  exact ⟨hreference, fun shorter => by simpa using hfirst shorter⟩

theorem restOf_eq_none_iff {back : Path} (hparts : ∀ part ∈ back, Path.Plain part ∧ part ≠ "") :
    restOf back = none ↔ back = [] := by
  rw [restOf]
  by_cases hback : back = []
  · subst hback
    decide
  · have htext : Path.text back ≠ "" := by
      intro hempty
      have hof := Path.ofText_text hback fun part hpart => (hparts part hpart).1
      rw [hempty, Path.ofText_of_plain (by decide)] at hof
      exact (hparts "" (by simp [← hof])).2 rfl
    simp [htext, hback]

/-- The parts of a path that leads through a reference: up to the reference, and behind it. -/
theorem reference?_eq_some {path : String} {reference : Reference}
    (hparts : ∀ part ∈ Path.ofText path, part ≠ "") (h : c.reference? path = some reference) :
    c.IsFirstReference (Path.ofText reference.field) ∧
      match reference.rest with
      | none => Path.ofText path = Path.ofText reference.field
      | some rest => Path.ofText path = Path.ofText reference.field ++ Path.ofText rest := by
  obtain ⟨front, back, hpath, hfront, hfield, hrest, hreference, hfirst⟩ := referenceFrom_eq_some h
  rw [List.nil_append] at hfield hreference
  have hmem : ∀ part ∈ front ++ back, Path.Plain part ∧ part ≠ "" := by
    rw [← hpath]
    exact fun part hpart => ⟨Path.plain_of_mem_ofText hpart, hparts part hpart⟩
  rw [List.forall_mem_append] at hmem
  have hof : Path.ofText reference.field = front := by
    rw [hfield]
    exact Path.ofText_text hfront fun part hpart => (hmem.1 part hpart).1
  rw [hof, hpath]
  refine ⟨⟨hreference, fun shorter => by simpa using hfirst shorter⟩, ?_⟩
  cases hback : reference.rest with
  | none =>
    rw [hback] at hrest
    rw [(restOf_eq_none_iff hmem.2).1 hrest.symm, List.append_nil]
  | some rest =>
    have hne : back ≠ [] := by
      intro hnil
      rw [hback, (restOf_eq_none_iff hmem.2).2 hnil] at hrest
      cases hrest
    have hrest : rest = Path.text back := by
      rw [hback, restOf] at hrest
      split at hrest
      · cases hrest
      · exact Option.some.inj hrest
    dsimp only
    rw [hrest, Path.ofText_text hne fun part hpart => (hmem.2 part hpart).1]

end Collection

/-! ### Planning -/

open Selection

namespace Join

/-- A join at a first reference, which asks for nothing but some of the given paths behind it. -/
structure Planned (c : Collection) (wanted : List Path) (join : Join) : Prop where
  reference : c.IsFirstReference (Path.ofText join.field)
  written : Fits (written included) join.selection
  behind : ∃ rest, rest ≠ [] ∧ Path.ofText join.field ++ rest ∈ wanted
  wanted : ∀ leaf ∈ leaves join.selection, Path.ofText join.field ++ leaf ∈ wanted

/-- The joins of a plan stand at different fields. -/
structure AllPlanned (c : Collection) (wanted : List Path) (joins : List Join) : Prop where
  each : ∀ join ∈ joins, Planned c wanted join
  distinct : (joins.map Join.field).Nodup

variable {c : Collection} {wanted : List Path} {joins : List Join}

theorem Planned.towards {join : Join} (h : Planned c wanted join) :
    ∃ path ∈ wanted, Path.ofText join.field <+: path := by
  obtain ⟨rest, -, hrest⟩ := h.behind
  exact ⟨_, hrest, List.prefix_append _ rest⟩

/-- Different joins of a plan stand at fields that are apart. -/
theorem apart_of_planned {join other : Join} (hjoin : Planned c wanted join)
    (hother : Planned c wanted other) (hne : join.field ≠ other.field) :
    Path.Apart (Path.ofText join.field) (Path.ofText other.field) := by
  rcases hjoin.reference.eq_or_apart hother.reference (Path.ofText_ne_nil _)
    (Path.ofText_ne_nil _) with hsame | hapart
  · exact absurd (Path.ofText_injective hsame) hne
  · exact hapart

theorem planned_merge {join new : Join} (h : Planned c wanted join) (hnew : Planned c wanted new)
    (hfield : join.field = new.field) :
    Planned c wanted { join with selection := join.selection.merge new.selection } where
  reference := h.reference
  written := fits_merge (kept_written included) h.written hnew.written
  behind := h.behind
  wanted leaf hleaf := by
    show Path.ofText join.field ++ leaf ∈ wanted
    rcases mem_leaves_merge hleaf with hleaf | hleaf
    · exact h.wanted leaf hleaf
    · rw [hfield]
      exact hnew.wanted leaf hleaf

theorem fields_add (joins : List Join) (new : Join) : (add joins new).map Join.field =
    if new.field ∈ joins.map Join.field then joins.map Join.field
    else joins.map Join.field ++ [new.field] := by
  induction joins with
  | nil => rfl
  | cons join rest ih =>
    rw [add]
    by_cases hfield : join.field = new.field
    · rw [if_pos hfield, if_pos (by simp [hfield])]
      rfl
    · rw [if_neg hfield, List.map_cons, ih]
      by_cases hmem : new.field ∈ rest.map Join.field
      · simp [hmem]
      · simp [hmem, Ne.symm hfield]

theorem nodup_fields_add (h : (joins.map Join.field).Nodup) (new : Join) :
    ((add joins new).map Join.field).Nodup := by
  rw [fields_add]
  split
  · exact h
  · next hnew =>
    refine List.nodup_append.2 ⟨h, by simp, ?_⟩
    rintro field hfield other hother rfl
    exact hnew (List.mem_singleton.1 hother ▸ hfield)

theorem AllPlanned.add {new : Join} (h : AllPlanned c wanted joins) (hnew : Planned c wanted new) :
    AllPlanned c wanted (add joins new) where
  each := by
    have heach := h.each
    clear h
    induction joins with
    | nil => exact List.forall_mem_singleton.2 hnew
    | cons join rest ih =>
      rw [List.forall_mem_cons] at heach
      rw [Join.add]
      split
      · next hfield => exact List.forall_mem_cons.2 ⟨planned_merge heach.1 hnew hfield, heach.2⟩
      · exact List.forall_mem_cons.2 ⟨heach.1, ih heach.2⟩
  distinct := nodup_fields_add h.distinct new

/-- What lies behind a reference is what the join asks for. -/
theorem planned_of_selectionBehind {path : String} {node : Node} {reference : Reference}
    {selection : Selection} (hpath : ∀ part ∈ Path.ofText path, WrittenKey part ∧ part ≠ "")
    (hnode : node.Has (written included))
    (hwanted : ∀ leaf ∈ node.leaves, Path.ofText path ++ leaf ∈ wanted)
    (hreference : c.reference? path = some reference)
    (hbehind : selectionBehind reference node = some selection) :
    Planned c wanted ⟨reference.field, reference.collection, selection, reference.many⟩ := by
  obtain ⟨hfirst, hparts⟩ :=
    Collection.reference?_eq_some (fun part hpart => (hpath part hpart).2) hreference
  obtain ⟨leaf, hleaf⟩ := exists_mem_leaves node hnode
  cases hrest : reference.rest with
  | none =>
    rw [hrest] at hparts
    cases node with
    | marker n => simp [selectionBehind, hrest] at hbehind
    | group entries =>
      simp only [selectionBehind, hrest, Option.some.injEq] at hbehind
      subst hbehind
      rw [leaves_group] at hwanted hleaf
      rw [hparts] at hwanted
      have hwritten : Fits (written included) entries := (has_group_iff.1 hnode).2
      exact ⟨hfirst, hwritten, ⟨leaf, ne_nil_of_mem_leaves hleaf, hwanted leaf hleaf⟩, hwanted⟩
  | some rest =>
    rw [hrest] at hparts
    simp only [selectionBehind, hrest, Option.some.injEq] at hbehind
    subst hbehind
    rw [hparts] at hwanted hpath
    have hkeys : ∀ part ∈ Path.ofText rest, WrittenKey part := by
      intro part hpart
      exact (hpath part (List.mem_append_right _ hpart)).1
    refine ⟨hfirst, ?_, ⟨Path.ofText rest ++ leaf, ?_, ?_⟩, ?_⟩
    · exact fits_mergePath (kept_written included) (fits_nil _) hkeys hnode
    · exact List.append_ne_nil_of_left_ne_nil (Path.ofText_ne_nil rest) leaf
    · rw [← List.append_assoc]
      exact hwanted leaf hleaf
    · intro leaf hleaf
      rcases mem_leaves_mergePath (fun _ => Path.plain_of_mem_ofText) hleaf with hnone | hsome
      · simp [leaves] at hnone
      · obtain ⟨below, hbelow, rfl⟩ := hsome
        show Path.ofText reference.field ++ (Path.ofText rest ++ below) ∈ wanted
        rw [← List.append_assoc]
        exact hwanted below hbelow

/-- The path of an entry, as keys. -/
def partsBelow (above : Option String) (key : String) : Path :=
  (above.map Path.ofText).getD [] ++ Path.ofText key

theorem ofText_pathBelow (above : Option String) (key : String) :
    Path.ofText (pathBelow above key) = partsBelow above key := by
  cases above with
  | none => rfl
  | some above => exact Path.ofText_append above key

theorem WrittenKey.parts {key : String} (h : WrittenKey key) :
    ∀ part ∈ Path.ofText key, WrittenKey part ∧ part ≠ "" :=
  fun part hpart => ⟨h.part hpart, (h part hpart).1⟩

theorem allPlanned_planEntries_of {entries : Selection} {above : Option String}
    (hnodes : ∀ entry ∈ entries, ∀ (joins : List Join) (path : String), AllPlanned c wanted joins →
      (∀ part ∈ Path.ofText path, WrittenKey part ∧ part ≠ "") → entry.2.Has (written included) →
        (∀ leaf ∈ entry.2.leaves, Path.ofText path ++ leaf ∈ wanted) →
          AllPlanned c wanted (planNode c joins path entry.2))
    (hjoins : AllPlanned c wanted joins)
    (habove : ∀ path, above = some path → ∀ part ∈ Path.ofText path, WrittenKey part ∧ part ≠ "")
    (hentries : Fits (written included) entries)
    (hwanted : ∀ entry ∈ entries, ∀ leaf ∈ entry.2.leaves, partsBelow above entry.1 ++ leaf ∈ wanted) :
    AllPlanned c wanted (planEntries c joins above entries) := by
  induction entries generalizing joins with
  | nil => rwa [planEntries]
  | cons entry rest ih =>
    obtain ⟨key, node⟩ := entry
    rw [List.forall_mem_cons] at hnodes hwanted
    obtain ⟨⟨hkey, hnode⟩, hrest⟩ := List.forall_mem_cons.1 hentries
    rw [planEntries]
    refine ih hnodes.2 (hnodes.1 joins _ hjoins ?_ hnode ?_) hrest hwanted.2
    · rw [ofText_pathBelow, partsBelow, List.forall_mem_append]
      refine ⟨?_, WrittenKey.parts hkey⟩
      cases above with
      | none => simp
      | some path => exact habove path rfl
    · rw [ofText_pathBelow]
      exact hwanted.1

/-- At a reference, the join for what is asked behind it is added. -/
theorem planNode_of_reference {path : String} {reference : Reference}
    (h : c.reference? path = some reference) (joins : List Join) (node : Node) :
    planNode c joins path node = ((selectionBehind reference node).map fun selection =>
      add joins ⟨reference.field, reference.collection, selection, reference.many⟩).getD joins := by
  cases node with
  | marker n =>
    rw [planNode]
    simp only [h]
    cases selectionBehind reference (.marker n) <;> rfl
  | group entries =>
    rw [planNode]
    simp only [h]
    cases selectionBehind reference (.group entries) <;> rfl

theorem planNode_marker_of_none {path : String} (h : c.reference? path = none) (joins : List Join)
    (n : Int32) : planNode c joins path (.marker n) = joins := by
  rw [planNode]
  simp only [h]

theorem planNode_group_of_none {path : String} (h : c.reference? path = none) (joins : List Join)
    (entries : Selection) :
    planNode c joins path (.group entries) = planEntries c joins (some path) entries := by
  rw [planNode]
  simp only [h]

theorem allPlanned_planNode (node : Node) : ∀ (joins : List Join) (path : String),
    AllPlanned c wanted joins → (∀ part ∈ Path.ofText path, WrittenKey part ∧ part ≠ "") →
      node.Has (written included) → (∀ leaf ∈ node.leaves, Path.ofText path ++ leaf ∈ wanted) →
        AllPlanned c wanted (planNode c joins path node) := by
  have hbehind : ∀ (node : Node) (joins : List Join) (path : String) (reference : Reference),
      c.reference? path = some reference → AllPlanned c wanted joins →
      (∀ part ∈ Path.ofText path, WrittenKey part ∧ part ≠ "") → node.Has (written included) →
        (∀ leaf ∈ node.leaves, Path.ofText path ++ leaf ∈ wanted) →
          AllPlanned c wanted (planNode c joins path node) := by
    intro node joins path reference hreference hjoins hpath hnode hwanted
    rw [planNode_of_reference hreference]
    cases hselection : selectionBehind reference node with
    | none => exact hjoins
    | some selection =>
      exact hjoins.add (planned_of_selectionBehind hpath hnode hwanted hreference hselection)
  induction node using Node.ind with
  | marker n =>
    intro joins path hjoins hpath hnode hwanted
    cases hreference : c.reference? path with
    | some reference => exact hbehind _ joins path reference hreference hjoins hpath hnode hwanted
    | none => rwa [planNode_marker_of_none hreference]
  | group entries ih =>
    intro joins path hjoins hpath hnode hwanted
    cases hreference : c.reference? path with
    | some reference => exact hbehind _ joins path reference hreference hjoins hpath hnode hwanted
    | none =>
      rw [planNode_group_of_none hreference]
      refine allPlanned_planEntries_of ih hjoins ?_ (has_group_iff.1 hnode).2 ?_
      · rintro _ ⟨⟩
        exact hpath
      · intro entry hentry leaf hleaf
        show Path.ofText path ++ Path.ofText entry.1 ++ leaf ∈ wanted
        rw [leaves_group] at hwanted
        rw [List.append_assoc]
        exact hwanted _ (mem_leaves_iff.2 ⟨entry, hentry, leaf, hleaf, rfl⟩)

/-- The joins of a selection ask for nothing that is not selected. -/
theorem allPlanned_plan (c : Collection) {selection : Selection}
    (h : Fits (written included) selection) : AllPlanned c (leaves selection) (plan c selection) := by
  refine allPlanned_planEntries_of (fun entry _ => allPlanned_planNode entry.2)
    ⟨by simp, List.nodup_nil⟩ (by simp) h ?_
  intro entry hentry leaf hleaf
  exact mem_leaves_iff.2 ⟨entry, hentry, leaf, hleaf, rfl⟩

section Induction

variable {P : List Join → Prop}
  (hadd : ∀ joins path reference selection, c.reference? path = some reference → P joins →
    P (Join.add joins ⟨reference.field, reference.collection, selection, reference.many⟩))

include hadd

omit hadd in
theorem planEntries_induction_of {entries : Selection} {above : Option String}
    (hnodes : ∀ entry ∈ entries, ∀ joins path, P joins → P (planNode c joins path entry.2))
    (hjoins : P joins) : P (planEntries c joins above entries) := by
  induction entries generalizing joins with
  | nil => rwa [planEntries]
  | cons entry rest ih =>
    obtain ⟨key, node⟩ := entry
    rw [List.forall_mem_cons] at hnodes
    rw [planEntries]
    exact ih hnodes.2 (hnodes.1 joins _ hjoins)

theorem planNode_induction (node : Node) :
    ∀ joins path, P joins → P (planNode c joins path node) := by
  have hbehind : ∀ node joins path reference, c.reference? path = some reference → P joins →
      P (planNode c joins path node) := by
    intro node joins path reference hreference hjoins
    rw [planNode_of_reference hreference]
    cases selectionBehind reference node with
    | none => exact hjoins
    | some selection => exact hadd joins path reference selection hreference hjoins
  induction node using Node.ind with
  | marker n =>
    intro joins path hjoins
    cases hreference : c.reference? path with
    | some reference => exact hbehind _ joins path reference hreference hjoins
    | none => rwa [planNode_marker_of_none hreference]
  | group entries ih =>
    intro joins path hjoins
    cases hreference : c.reference? path with
    | some reference => exact hbehind _ joins path reference hreference hjoins
    | none =>
      rw [planNode_group_of_none hreference]
      exact planEntries_induction_of ih hjoins

/-- What adding a join at a reference keeps, holds of every plan. -/
theorem plan_induction (hnil : P []) (selection : Selection) : P (plan c selection) :=
  planEntries_induction_of (fun entry _ => planNode_induction hadd entry.2) hnil

end Induction

/-- The joins of a plan stand at first references, each at another one. -/
theorem firstReferences_plan (c : Collection) (selection : Selection) :
    (∀ field ∈ (plan c selection).map Join.field, c.IsFirstReference (Path.ofText field)) ∧
      ((plan c selection).map Join.field).Nodup := by
  refine plan_induction (P := fun joins =>
    (∀ field ∈ joins.map Join.field, c.IsFirstReference (Path.ofText field)) ∧
      (joins.map Join.field).Nodup) ?_ ⟨by simp, List.nodup_nil⟩ selection
  rintro joins path reference selection hreference ⟨hfirst, hdistinct⟩
  refine ⟨?_, nodup_fields_add hdistinct _⟩
  rw [fields_add]
  split
  · exact hfirst
  · refine List.forall_mem_append.2 ⟨hfirst, List.forall_mem_singleton.2 ?_⟩
    exact Collection.isFirstReference_of_reference? hreference

/-- The fields of the joins of a plan are apart. -/
theorem apart_plan (c : Collection) (selection : Selection) :
    (plan c selection).Pairwise fun join other =>
      Path.Apart (Path.ofText join.field) (Path.ofText other.field) := by
  obtain ⟨hfirst, hdistinct⟩ := firstReferences_plan c selection
  refine (List.pairwise_map.1 hdistinct).imp_of_mem ?_
  intro join other hjoin hother hne
  rcases (hfirst _ (List.mem_map_of_mem hjoin)).eq_or_apart (hfirst _ (List.mem_map_of_mem hother))
    (Path.ofText_ne_nil _) (Path.ofText_ne_nil _) with hsame | hapart
  · exact absurd (Path.ofText_injective hsame) hne
  · exact hapart

end Join

/-! ### Stripping -/

/-- Protected fields are written with the marker of what is left out. -/
theorem Collection.fits_protectedSelection {c : Collection} {hidden : Selection}
    (h : c.protectedSelection = .ok hidden) : Fits (written excluded) hidden := by
  unfold protectedSelection at h
  split at h
  · exact fits_read (Outcome.mapError_eq_ok_iff.1 h)
  · obtain rfl := Except.ok.inj h
    exact fits_nil _

namespace Compiler

/-- What a join asks for is apart from what the other collection protects. -/
def Stripped (catalog : Catalog) (join : Join) : Prop :=
  ∀ target theirs, catalog.find? join.collection = some target →
    target.protectedSelection = .ok theirs →
      ∀ leaf ∈ leaves join.selection, ∀ path ∈ leaves theirs, Path.Apart leaf path

variable {c : Collection} {wanted : List Path}

/-- A join with the protected fields of its own collection taken away. -/
def strip (catalog : Catalog) (join : Join) : Except QueryError Join :=
  match catalog.find? join.collection with
  | none => .ok join
  | some target => target.protectedSelection.map fun hidden =>
    { join with selection :=
      if hidden.isEmpty then join.selection else join.selection.without hidden }

theorem stripJoins_cons (catalog : Catalog) (join : Join) (rest : List Join) :
    stripJoins catalog (join :: rest) = strip catalog join >>= fun new =>
      stripJoins catalog rest >>= fun others => .ok (new :: others) := by
  rw [stripJoins, strip]
  cases catalog.find? join.collection with
  | none => rfl
  | some target => cases hhidden : target.protectedSelection <;> simp [hhidden] <;> rfl

theorem field_strip {catalog : Catalog} {join new : Join} (h : strip catalog join = .ok new) :
    new.field = join.field := by
  unfold strip at h
  split at h
  · rw [Except.ok.inj h]
  · obtain ⟨hidden, -, rfl⟩ := Outcome.map_eq_ok_iff.1 h
    rfl

/-- Stripped joins stand at the same fields. -/
theorem fields_stripJoins {catalog : Catalog} {joins stripped : List Join}
    (h : stripJoins catalog joins = .ok stripped) :
    stripped.map Join.field = joins.map Join.field := by
  induction joins generalizing stripped with
  | nil =>
    obtain rfl := Except.ok.inj h
    rfl
  | cons join rest ih =>
    rw [stripJoins_cons] at h
    obtain ⟨new, hnew, h⟩ := Outcome.bind_eq_ok_iff.1 h
    obtain ⟨others, hothers, h⟩ := Outcome.bind_eq_ok_iff.1 h
    obtain rfl := Except.ok.inj h
    rw [List.map_cons, List.map_cons, field_strip hnew, ih hothers]

theorem planned_of_strip {catalog : Catalog} {join new : Join} (hjoin : join.Planned c wanted)
    (h : strip catalog join = .ok new) : new.Planned c wanted ∧ Stripped catalog new := by
  unfold strip at h
  cases hfind : catalog.find? join.collection with
  | none =>
    rw [hfind] at h
    obtain rfl := Except.ok.inj h
    refine ⟨hjoin, fun target theirs htarget => ?_⟩
    rw [hfind] at htarget
    cases htarget
  | some target =>
    rw [hfind] at h
    obtain ⟨hidden, hhidden, rfl⟩ := Outcome.map_eq_ok_iff.1 h
    have hstripped : ∀ selection : Selection, (∀ leaf ∈ leaves selection, ∀ path ∈ leaves hidden,
        Path.Apart leaf path) → Stripped catalog { join with selection := selection } := by
      intro selection hapart other theirs htarget htheirs
      obtain rfl : target = other := Option.some.inj (hfind.symm.trans htarget)
      obtain rfl : hidden = theirs := Except.ok.inj (hhidden.symm.trans htheirs)
      exact hapart
    by_cases hempty : hidden.isEmpty = true
    · rw [if_pos hempty]
      obtain rfl := List.isEmpty_iff.1 hempty
      exact ⟨hjoin, hstripped _ (by simp [leaves])⟩
    · rw [if_neg hempty]
      refine ⟨⟨hjoin.reference, fits_without hidden hjoin.written, hjoin.behind, ?_⟩, ?_⟩
      · exact fun leaf hleaf => hjoin.wanted leaf (mem_leaves_without hleaf)
      · exact hstripped _ fun leaf hleaf path => apart_without hleaf

theorem planned_of_stripJoins {catalog : Catalog} {joins stripped : List Join}
    (h : stripJoins catalog joins = .ok stripped)
    (hjoins : ∀ join ∈ joins, join.Planned c wanted) :
    ∀ join ∈ stripped, join.Planned c wanted ∧ Stripped catalog join := by
  induction joins generalizing stripped with
  | nil =>
    obtain rfl := Except.ok.inj h
    simp
  | cons join rest ih =>
    rw [List.forall_mem_cons] at hjoins
    rw [stripJoins_cons] at h
    obtain ⟨new, hnew, h⟩ := Outcome.bind_eq_ok_iff.1 h
    obtain ⟨others, hothers, h⟩ := Outcome.bind_eq_ok_iff.1 h
    obtain rfl := Except.ok.inj h
    exact List.forall_mem_cons.2 ⟨planned_of_strip hjoins.1 hnew, ih hothers hjoins.2⟩

/-- The joins of a query ask for nothing that is not selected, and for nothing that their own
collections protect. -/
theorem planned_of_planJoins {c : Compiler} {selection : Selection} {joins : List Join}
    (hselection : Fits (written included) selection) (h : c.planJoins selection = .ok joins) :
    Join.AllPlanned c.collection (leaves selection) joins ∧ ∀ join ∈ joins, Stripped c.catalog join := by
  have hplan := Join.allPlanned_plan c.collection hselection
  have heach := planned_of_stripJoins h hplan.each
  have hdistinct : (joins.map Join.field).Nodup := by
    rw [fields_stripJoins h]
    exact hplan.distinct
  refine ⟨⟨?_, hdistinct⟩, ?_⟩
  · intro join hjoin
    exact (heach join hjoin).1
  · intro join hjoin
    exact (heach join hjoin).2

end Compiler

end DocQuery
