import DocQuery.Proofs.Query.Joins
import DocQuery.Proofs.Selection.Covering
import Mathlib.Data.List.Nodup

/-!
# What each leaf asks of the joins

A leaf that goes on behind a reference is split behind the first one: it asks the documents that the field
there refers to for the rest of it (`Collection.split?`).  Planning goes through the selection node by
node, and adds joins at the references that it meets; all it adds are the requests of the leaves, one
after the other (`Join.filterMap_split?`).  So a plan has one join for each field that a leaf asks, in
the order in which the leaves come up, and the join covers what the leaves ask for there
(`Join.plan_meets_requests`).
-/

namespace DocQuery

open Selection

/-! ### Paths behind references -/

namespace Collection

variable {c : Collection}

theorem referenceFrom_eq_none {taken rest : Path} (h : c.referenceFrom taken rest = none) :
    ∀ front, front <+: rest → front ≠ [] → ¬c.IsReference (taken ++ front) := by
  induction rest generalizing taken with
  | nil =>
    intro front hfront hne
    exact absurd (List.prefix_nil.1 hfront) hne
  | cons key rest ih =>
    unfold referenceFrom at h
    dsimp only at h
    split at h
    · cases h
    · next hnone =>
      intro front hfront hne
      rcases List.prefix_cons_iff.1 hfront with rfl | ⟨tail, rfl, htail⟩
      · exact absurd rfl hne
      · by_cases hnil : tail = []
        · subst hnil
          rintro ⟨info, target, hlookup, htarget⟩
          rw [hlookup] at hnone
          simp [htarget] at hnone
        · rw [List.append_cons]
          exact ih h tail htail hnil

/-- A path that no reference is a beginning of leads through none. -/
theorem not_isReference_of_reference?_eq_none {path : String} (h : c.reference? path = none)
    {field : Path} (hfield : field <+: Path.ofText path) (hne : field ≠ []) : ¬c.IsReference field := by
  rw [← List.nil_append field]
  exact referenceFrom_eq_none h field hfield hne

theorem exists_info_of_referenceFrom {taken rest : Path} {reference : Reference}
    (h : c.referenceFrom taken rest = some reference) :
    ∃ info, c.fields.lookup reference.field = some info ∧
      info.target = some reference.collection ∧ info.many = reference.many := by
  induction rest generalizing taken with
  | nil => cases h
  | cons key rest ih =>
    unfold referenceFrom at h
    dsimp only at h
    split at h
    · next info target hfound =>
      obtain rfl := Option.some.inj h
      obtain ⟨found, hlookup, hmap⟩ := Option.bind_eq_some_iff.1 hfound
      obtain ⟨name, hname, heq⟩ := Option.map_eq_some_iff.1 hmap
      cases heq
      exact ⟨_, hlookup, hname, rfl⟩
    · exact ih h

instance (c : Collection) : DecidablePred c.IsReference := fun path =>
  decidable_of_iff (((c.fields.lookup (Path.text path)).bind FieldInfo.target).isSome = true) (by
    rw [Option.isSome_iff_exists, IsReference]
    simp only [Option.bind_eq_some_iff]
    exact ⟨fun ⟨target, info, h⟩ => ⟨info, target, h⟩, fun ⟨info, target, h⟩ => ⟨target, info, h⟩⟩)

/-- A path that goes on behind a reference, split behind the first one: the field that holds the ids, and
the path into the documents that they stand for. -/
def split? (c : Collection) (path : Path) : Option (String × Path) :=
  ((List.range path.length).find? fun n => 0 < n ∧ c.IsReference (path.take n)).map fun n =>
    (Path.text (path.take n), path.drop n)

theorem split?_append {field rest : Path} (hfield : c.IsFirstReference field) (hne : field ≠ [])
    (hrest : rest ≠ []) : c.split? (field ++ rest) = some (Path.text field, rest) := by
  have hfind : ((List.range (field ++ rest).length).find? fun n =>
      0 < n ∧ c.IsReference ((field ++ rest).take n)) = some field.length := by
    rw [List.find?_range_eq_some]
    refine ⟨?_, ?_, fun n hn => ?_⟩
    · simpa using ⟨List.length_pos_iff.2 hne, hfield.reference⟩
    · simpa using List.length_pos_iff.2 hrest
    · rw [List.take_append_of_le_length (Nat.le_of_lt hn), Bool.not_eq_true', decide_eq_false_iff_not]
      rintro ⟨hpos, hreference⟩
      refine hfield.first _ (List.take_prefix n field) ?_ ?_ hreference
      · exact List.ne_nil_of_length_pos (by rw [List.length_take]; omega)
      · exact fun heq => absurd (congrArg List.length heq) (by rw [List.length_take]; omega)
  rw [split?, hfind]
  simp

theorem split?_eq_some {path rest : Path} {field : String} (h : c.split? path = some (field, rest)) :
    ∃ front, field = Path.text front ∧ c.IsFirstReference front ∧ front ≠ [] ∧ rest ≠ [] ∧
      path = front ++ rest := by
  obtain ⟨n, hfind, heq⟩ := Option.map_eq_some_iff.1 h
  obtain ⟨hn, hlt, hleast⟩ := List.find?_range_eq_some.1 hfind
  obtain ⟨hpos, hreference⟩ := of_decide_eq_true hn
  rw [List.mem_range] at hlt
  obtain ⟨rfl, rfl⟩ := Prod.mk.inj heq
  have hlength : (path.take n).length = n := by rw [List.length_take]; omega
  refine ⟨path.take n, rfl, ⟨hreference, ?_⟩, ?_, ?_, (List.take_append_drop n path).symm⟩
  · intro shorter hbegin hne hother hshorter
    have hlt : shorter.length < n := by
      have hle := hbegin.length_le
      have hdifferent := mt hbegin.eq_of_length hother
      omega
    refine absurd (hleast _ hlt) ?_
    rw [Bool.not_eq_true', decide_eq_false_iff_not, not_not]
    refine ⟨List.length_pos_iff.2 hne, ?_⟩
    rwa [← List.prefix_iff_eq_take.1 (hbegin.trans (List.take_prefix n path))]
  · exact List.ne_nil_of_length_pos (by omega)
  · exact List.ne_nil_of_length_pos (by rw [List.length_drop]; omega)

/-- A path with no reference in front of its end is not split. -/
theorem split?_eq_none {path : Path}
    (h : ∀ front, front <+: path → front ≠ [] → front ≠ path → ¬ c.IsReference front) :
    c.split? path = none := by
  rw [Option.eq_none_iff_forall_ne_some]
  rintro ⟨field, rest⟩ hsplit
  obtain ⟨front, -, hfirst, hne, hrest, rfl⟩ := split?_eq_some hsplit
  exact h front (List.prefix_append front rest) hne (by simpa using Ne.symm hrest) hfirst.reference

end Collection

namespace Join

variable {c : Collection} {joins : List Join} {field rest : Path}

/-! ### Requests -/

/-- The join for what a reference asks for, if that is anything. -/
def requestAt (reference : Reference) (node : Node) : List Join :=
  ((selectionBehind reference node).map fun selection =>
    ⟨reference.field, reference.collection, selection, reference.many⟩).toList

mutual

/-- The joins that the node at a path asks for, one for each reference that is met. -/
def requests (c : Collection) (path : String) : Node → List Join
  | .marker n =>
    match c.reference? path with
    | some reference => requestAt reference (.marker n)
    | none => []
  | .group entries =>
    match c.reference? path with
    | some reference => requestAt reference (.group entries)
    | none => requestsIn c (some path) entries

/-- The joins that the entries below a path ask for. -/
def requestsIn (c : Collection) (above : Option String) : List (String × Node) → List Join
  | [] => []
  | (key, node) :: rest => requests c (pathBelow above key) node ++ requestsIn c above rest

end

theorem requests_of_reference {path : String} {reference : Reference}
    (h : c.reference? path = some reference) (node : Node) :
    requests c path node = requestAt reference node := by
  cases node <;> simp only [requests, h]

theorem requests_marker_of_none {path : String} (h : c.reference? path = none) (n : Int32) :
    requests c path (.marker n) = [] := by
  simp only [requests, h]

theorem requests_group_of_none {path : String} (h : c.reference? path = none) (entries : Selection) :
    requests c path (.group entries) = requestsIn c (some path) entries := by
  simp only [requests, h]

theorem planEntries_eq_foldl_of {entries : Selection} {above : Option String}
    (hnodes : ∀ entry ∈ entries, ∀ (joins : List Join) (path : String),
      planNode c joins path entry.2 = (requests c path entry.2).foldl add joins) :
    planEntries c joins above entries = (requestsIn c above entries).foldl add joins := by
  induction entries generalizing joins with
  | nil => rw [planEntries, requestsIn, List.foldl_nil]
  | cons entry rest ih =>
    obtain ⟨key, node⟩ := entry
    rw [List.forall_mem_cons] at hnodes
    rw [planEntries, requestsIn, List.foldl_append, ih hnodes.2, hnodes.1]

theorem planNode_eq_foldl (node : Node) : ∀ (joins : List Join) (path : String),
    planNode c joins path node = (requests c path node).foldl add joins := by
  have hbehind : ∀ (node : Node) (joins : List Join) (path : String) (reference : Reference),
      c.reference? path = some reference →
        planNode c joins path node = (requests c path node).foldl add joins := by
    intro node joins path reference hreference
    rw [planNode_of_reference hreference, requests_of_reference hreference, requestAt]
    cases selectionBehind reference node <;> rfl
  induction node using Node.ind with
  | marker n =>
    intro joins path
    cases hreference : c.reference? path with
    | some reference => exact hbehind _ joins path reference hreference
    | none =>
      rw [planNode_marker_of_none hreference, requests_marker_of_none hreference, List.foldl_nil]
  | group entries ih =>
    intro joins path
    cases hreference : c.reference? path with
    | some reference => exact hbehind _ joins path reference hreference
    | none =>
      rw [planNode_group_of_none hreference, requests_group_of_none hreference,
        planEntries_eq_foldl_of ih]

/-- A plan adds all that is asked for, one after the other. -/
theorem plan_eq_foldl (c : Collection) (selection : Selection) :
    plan c selection = (requestsIn c none selection).foldl add [] :=
  planEntries_eq_foldl_of fun entry _ => planNode_eq_foldl entry.2

/-! ### Leaves -/

/-- What a join asks for: the paths into the other documents, each with the field of the join. -/
def asks (join : Join) : List (String × Path) := (leaves join.selection).map (join.field, ·)

theorem leaves_mergePath_nil {path : Path} (hplain : ∀ key ∈ path, Path.Plain key) (hne : path ≠ [])
    (node : Node) : leaves (mergePath [] path node) = node.leaves.map (path ++ ·) := by
  have hentry : ∀ (key : String) (node : Node), Path.Plain key →
      leaves (mergeEntry [] key node) = node.leaves.map (key :: ·) := by
    intro key node hkey
    rw [mergeEntry_eq, Keyed.adjust, unionWith, leaves, leaves, List.append_nil,
      Path.ofText_of_plain hkey]
    rfl
  induction path with
  | nil => exact absurd rfl hne
  | cons key path ih =>
    rw [List.forall_mem_cons] at hplain
    cases path with
    | nil =>
      rw [mergePath, hentry key node hplain.1]
      rfl
    | cons next path =>
      rw [mergePath, hentry key _ hplain.1, leaves_group, ih hplain.2 (by simp), List.map_map]
      · rfl
      · simp

/-- A reference asks for what the leaves at it and behind it ask for. -/
theorem filterMap_split?_of_reference {path : String} {reference : Reference} (node : Node)
    (hparts : ∀ part ∈ Path.ofText path, part ≠ "") (h : c.reference? path = some reference) :
    (node.leaves.filterMap fun leaf => c.split? (Path.ofText path ++ leaf)) =
      (requestAt reference node).flatMap asks := by
  obtain ⟨hfirst, hshape⟩ := Collection.reference?_eq_some hparts h
  have hsplit : ∀ rest, rest ≠ [] →
      c.split? (Path.ofText reference.field ++ rest) = some (reference.field, rest) := by
    intro rest hrest
    rw [Collection.split?_append hfirst (Path.ofText_ne_nil _) hrest, Path.text_ofText]
  cases hrest : reference.rest with
  | none =>
    rw [hrest] at hshape
    cases node with
    | marker n =>
      have hnone : c.split? (Path.ofText path) = none := by
        rw [hshape]
        exact Collection.split?_eq_none hfirst.first
      simp [requestAt, selectionBehind, hrest, Node.leaves, hnone]
    | group entries =>
      have hrequest : (requestAt reference (.group entries)).flatMap asks =
          (leaves entries).map (reference.field, ·) := by
        simp [requestAt, selectionBehind, hrest, asks]
      rw [hrequest, leaves_group, hshape, ← List.filterMap_eq_map]
      exact List.filterMap_congr fun leaf hleaf => hsplit leaf (ne_nil_of_mem_leaves hleaf)
  | some rest =>
    rw [hrest] at hshape
    have hrequest : (requestAt reference node).flatMap asks =
        node.leaves.map fun leaf => (reference.field, Path.ofText rest ++ leaf) := by
      have hleaves := leaves_mergePath_nil (fun _ => Path.plain_of_mem_ofText)
        (Path.ofText_ne_nil rest) node
      simp only [requestAt, selectionBehind, hrest, Option.map_some, Option.toList_some,
        List.flatMap_singleton, asks, hleaves, List.map_map]
      rfl
    rw [hrequest, hshape, ← List.filterMap_eq_map]
    refine List.filterMap_congr fun leaf _ => ?_
    rw [List.append_assoc]
    exact hsplit _ (List.append_ne_nil_of_left_ne_nil (Path.ofText_ne_nil rest) leaf)

theorem filterMap_split?_of {entries : Selection} (above : Option String)
    (hnodes : ∀ entry ∈ entries, ∀ path : String, (∀ part ∈ Path.ofText path, part ≠ "") →
      entry.2.Has named → (entry.2.leaves.filterMap fun leaf => c.split? (Path.ofText path ++ leaf)) =
        (requests c path entry.2).flatMap asks)
    (habove : ∀ path, above = some path → ∀ part ∈ Path.ofText path, part ≠ "")
    (hentries : Fits named entries) :
    ((leaves entries).filterMap fun leaf => c.split? ((above.map Path.ofText).getD [] ++ leaf)) =
      (requestsIn c above entries).flatMap asks := by
  induction entries with
  | nil => simp [leaves, requestsIn]
  | cons entry rest ih =>
    obtain ⟨key, node⟩ := entry
    rw [List.forall_mem_cons] at hnodes
    obtain ⟨⟨hkey, hnode⟩, hrest⟩ := List.forall_mem_cons.1 hentries
    have hparts : ∀ part ∈ Path.ofText (pathBelow above key), part ≠ "" := by
      rw [ofText_pathBelow, partsBelow, List.forall_mem_append]
      refine ⟨?_, hkey⟩
      cases above with
      | none => simp
      | some path => exact habove path rfl
    have hfirst := hnodes.1 _ hparts hnode
    rw [ofText_pathBelow, partsBelow] at hfirst
    rw [leaves, requestsIn, List.filterMap_append, List.flatMap_append, ih hnodes.2 hrest, ← hfirst,
      List.filterMap_map]
    simp only [Function.comp_def, List.append_assoc]

theorem filterMap_split?_node (node : Node) : ∀ path : String,
    (∀ part ∈ Path.ofText path, part ≠ "") → node.Has named →
      (node.leaves.filterMap fun leaf => c.split? (Path.ofText path ++ leaf)) =
        (requests c path node).flatMap asks := by
  induction node using Node.ind with
  | marker n =>
    intro path hparts _
    cases hreference : c.reference? path with
    | some reference =>
      rw [requests_of_reference hreference, filterMap_split?_of_reference _ hparts hreference]
    | none =>
      have hnone : c.split? (Path.ofText path) = none := Collection.split?_eq_none
        fun front hfront hne _ =>
          Collection.not_isReference_of_reference?_eq_none hreference hfront hne
      simp [requests_marker_of_none hreference, Node.leaves, hnone]
  | group entries ih =>
    intro path hparts hnode
    cases hreference : c.reference? path with
    | some reference =>
      rw [requests_of_reference hreference, filterMap_split?_of_reference _ hparts hreference]
    | none =>
      rw [requests_group_of_none hreference, leaves_group]
      refine filterMap_split?_of (some path) ih ?_ (has_group_iff.1 hnode).2
      rintro _ ⟨⟩
      exact hparts

/-- What is asked for is what the leaves ask for. -/
theorem filterMap_split? {selection : Selection} (h : Fits named selection) :
    (leaves selection).filterMap c.split? = (requestsIn c none selection).flatMap asks :=
  filterMap_split?_of none (fun entry _ => filterMap_split?_node entry.2) (by simp) h

/-! ### Joins for all requests -/

/-- The collection of a join and whether its field holds many ids are as declared. -/
def Declared (c : Collection) (join : Join) : Prop :=
  ∃ info, c.fields.lookup join.field = some info ∧ info.target = some join.collection ∧
    info.many = join.many

theorem forall_mem_add {Q : Join → Prop} (hmerge : ∀ join : Join, ∀ selection, Q join →
    Q { join with selection := selection }) (h : ∀ join ∈ joins, Q join) {new : Join} (hnew : Q new) :
    ∀ join ∈ add joins new, Q join := by
  induction joins with
  | nil => exact List.forall_mem_singleton.2 hnew
  | cons join rest ih =>
    rw [List.forall_mem_cons] at h
    rw [add]
    split
    · exact List.forall_mem_cons.2 ⟨hmerge join _ h.1, h.2⟩
    · exact List.forall_mem_cons.2 ⟨h.1, ih h.2⟩

theorem declared_plan (c : Collection) (selection : Selection) :
    ∀ join ∈ plan c selection, Declared c join := by
  refine plan_induction (P := fun joins => ∀ join ∈ joins, Declared c join) ?_ (by simp) selection
  intro joins path reference selection hreference hjoins
  exact forall_mem_add (fun _ _ h => h) hjoins (Collection.exists_info_of_referenceFrom hreference)

/-- A join at a field covers a path into the other documents. -/
def Asked (joins : List Join) (field rest : Path) : Prop :=
  ∃ join ∈ joins, Path.ofText join.field = field ∧ Covers join.selection rest

theorem asked_cons_iff {join : Join} : Asked (join :: joins) field rest ↔
    (Path.ofText join.field = field ∧ Covers join.selection rest) ∨ Asked joins field rest :=
  List.exists_mem_cons_iff _ _ _

/-- A join that is added brings what it asks for itself. -/
theorem asked_add_iff {new : Join} : Asked (add joins new) field rest ↔
    Asked joins field rest ∨ Path.ofText new.field = field ∧ Covers new.selection rest := by
  induction joins with
  | nil => rw [add, asked_cons_iff, or_comm]
  | cons first others ih =>
    rw [add]
    split
    · next hsame =>
      rw [asked_cons_iff, asked_cons_iff, covers_merge_iff, ← hsame]
      tauto
    · rw [asked_cons_iff, asked_cons_iff, ih, or_assoc]

theorem asked_foldl_add_iff {new : List Join} : Asked (new.foldl add joins) field rest ↔
    Asked joins field rest ∨ ∃ join ∈ new, Path.ofText join.field = field ∧ Covers join.selection rest := by
  induction new generalizing joins with
  | nil => simp
  | cons join new ih => rw [List.foldl_cons, ih, asked_add_iff, List.exists_mem_cons_iff, or_assoc]

/-- What the leaves of a selection ask for: fields of ids, each with a path into the documents that the
ids stand for. -/
def asked (c : Collection) (selection : Selection) : List (String × Path) :=
  (leaves selection).filterMap c.split?

/-- The joins cover what the leaves ask for, and nothing else. -/
theorem asked_plan_iff {selection : Selection} (h : Fits named selection) {field : String} {path : Path} :
    Asked (plan c selection) (Path.ofText field) path ↔
      ∃ rest, (field, rest) ∈ asked c selection ∧ rest <+: path := by
  rw [plan_eq_foldl, asked_foldl_add_iff, asked, filterMap_split? h]
  simp only [List.mem_flatMap, asks, List.mem_map, Prod.mk.injEq]
  constructor
  · rintro (⟨join, hjoin, -⟩ | ⟨join, hjoin, hfield, leaf, hleaf, hbegin⟩)
    · cases hjoin
    · exact ⟨leaf, ⟨join, hjoin, leaf, hleaf, Path.ofText_injective hfield, rfl⟩, hbegin⟩
  · rintro ⟨_, ⟨join, hjoin, leaf, hleaf, rfl, rfl⟩, hbegin⟩
    exact .inr ⟨join, hjoin, rfl, leaf, hleaf, hbegin⟩

/-! ### The order of the joins -/

/-- One more value, however often, comes last if it is new. -/
theorem eraseDups_append_of_forall_eq {α : Type} [DecidableEq α] {done new : List α} {a : α}
    (hne : new ≠ []) (h : ∀ b ∈ new, b = a) :
    (done ++ new).eraseDups = if a ∈ done then done.eraseDups else done.eraseDups ++ [a] := by
  rw [List.eraseDups_append, List.removeAll]
  by_cases hmem : a ∈ done
  · have hnone : new.filter (fun b => !done.elem b) = [] := by
      rw [List.filter_eq_nil_iff]
      intro b hb
      simpa [h b hb] using hmem
    rw [if_pos hmem, hnone, List.eraseDups_nil, List.append_nil]
  · have hall : new.filter (fun b => !done.elem b) = new := by
      rw [List.filter_eq_self]
      intro b hb
      simpa [h b hb] using hmem
    obtain ⟨first, more, rfl⟩ := List.exists_cons_of_ne_nil hne
    obtain ⟨rfl, hmore⟩ := List.forall_mem_cons.1 h
    have hsame : more.filter (fun b => !b == first) = [] := by
      rw [List.filter_eq_nil_iff]
      intro b hb
      simp [hmore b hb]
    rw [if_neg hmem, hall, List.eraseDups_cons, hsame, List.eraseDups_nil]

theorem fields_foldl_add {new : List Join} (hnew : ∀ join ∈ new, join.asks ≠ [])
    {done : List String} (h : joins.map Join.field = done.eraseDups) :
    (new.foldl add joins).map Join.field =
      (done ++ (new.flatMap asks).map Prod.fst).eraseDups := by
  induction new generalizing joins done with
  | nil => simpa using h
  | cons join new ih =>
    rw [List.forall_mem_cons] at hnew
    have hfields : ∀ field ∈ join.asks.map Prod.fst, field = join.field := by
      simp [asks]
    rw [List.foldl_cons, List.flatMap_cons, List.map_append, ← List.append_assoc]
    refine ih hnew.2 ?_
    rw [fields_add, h, eraseDups_append_of_forall_eq (by simpa using hnew.1) hfields]
    simp

theorem asks_ne_nil_of_mem_requestAt {reference : Reference} {node : Node} {join : Join}
    (hnode : node.Has named) (h : join ∈ requestAt reference node) : join.asks ≠ [] := by
  obtain ⟨leaf, hleaf⟩ := exists_mem_leaves_of_full node (hnode.mono named_implies_full)
  obtain ⟨selection, hselection, rfl⟩ := Option.map_eq_some_iff.1 (Option.mem_toList.1 h)
  rw [asks, ne_eq, List.map_eq_nil_iff]
  unfold selectionBehind at hselection
  split at hselection
  · cases hselection
    exact List.ne_nil_of_mem (leaves_group _ ▸ hleaf)
  · cases hselection
  · next rest _ =>
    cases hselection
    rw [leaves_mergePath_nil (fun _ => Path.plain_of_mem_ofText) (Path.ofText_ne_nil rest),
      List.map_eq_nil_iff]
    exact List.ne_nil_of_mem hleaf

theorem asks_ne_nil_of {entries : Selection} (above : Option String)
    (hnodes : ∀ entry ∈ entries, ∀ path : String, entry.2.Has named →
      ∀ join ∈ requests c path entry.2, join.asks ≠ [])
    (hentries : Fits named entries) : ∀ join ∈ requestsIn c above entries, join.asks ≠ [] := by
  induction entries with
  | nil => simp [requestsIn]
  | cons entry rest ih =>
    obtain ⟨key, node⟩ := entry
    rw [List.forall_mem_cons] at hnodes
    obtain ⟨⟨-, hnode⟩, hrest⟩ := List.forall_mem_cons.1 hentries
    rw [requestsIn, List.forall_mem_append]
    exact ⟨hnodes.1 _ hnode, ih hnodes.2 hrest⟩

/-- Where no group is empty, each request asks for something. -/
theorem asks_ne_nil (node : Node) : ∀ path : String, node.Has named →
    ∀ join ∈ requests c path node, join.asks ≠ [] := by
  induction node using Node.ind with
  | marker n =>
    intro path hnode join hjoin
    cases hreference : c.reference? path with
    | some reference =>
      rw [requests_of_reference hreference] at hjoin
      exact asks_ne_nil_of_mem_requestAt hnode hjoin
    | none =>
      rw [requests_marker_of_none hreference] at hjoin
      cases hjoin
  | group entries ih =>
    intro path hnode join hjoin
    cases hreference : c.reference? path with
    | some reference =>
      rw [requests_of_reference hreference] at hjoin
      exact asks_ne_nil_of_mem_requestAt hnode hjoin
    | none =>
      rw [requests_group_of_none hreference] at hjoin
      exact asks_ne_nil_of _ ih (has_group_iff.1 hnode).2 join hjoin

/-- The fields of the joins are those that are asked for, in the order in which they come up. -/
theorem fields_plan {selection : Selection} (h : Fits named selection) :
    (plan c selection).map Join.field = ((asked c selection).map Prod.fst).eraseDups := by
  have hasks := asks_ne_nil_of (c := c) none (fun entry _ => asks_ne_nil entry.2) h
  have hnil : ([] : List Join).map Join.field = ([] : List String).eraseDups := by simp
  rw [plan_eq_foldl, fields_foldl_add hasks hnil, asked, filterMap_split? h, List.nil_append]

/-- **A plan has the joins that the leaves ask for.**  There is one for each field that a leaf goes on
behind, in the order in which the leaves come up; it is as declared, and covers the paths behind the field.
No field of a join is a beginning of the field of another one. -/
theorem plan_meets_requests (c : Collection) {selection : Selection} (h : Fits named selection) :
    (plan c selection).map Join.field = ((asked c selection).map Prod.fst).eraseDups ∧
      (∀ join ∈ plan c selection, Declared c join ∧ ∀ path, Covers join.selection path ↔
        ∃ rest, (join.field, rest) ∈ asked c selection ∧ rest <+: path) ∧
      (plan c selection).Pairwise fun join other =>
        Path.Apart (Path.ofText join.field) (Path.ofText other.field) := by
  refine ⟨fields_plan h, fun join hjoin => ⟨declared_plan c selection join hjoin, fun path => ?_⟩,
    apart_plan c selection⟩
  rw [← asked_plan_iff h]
  constructor
  · exact fun hcovers => ⟨join, hjoin, rfl, hcovers⟩
  · rintro ⟨other, hother, hfield, hcovers⟩
    obtain rfl : other = join := List.inj_on_of_nodup_map (firstReferences_plan c selection).2 hother
      hjoin (Path.ofText_injective hfield)
    exact hcovers

end Join

/-! ### An owner below a document, and a friend -/

namespace PostsWithOwners

def posts : Collection :=
  ⟨[("friend", ⟨.objectId, some "people", false⟩), ("meta", ⟨.document, none, false⟩),
    ("meta.owner", ⟨.objectId, some "people", true⟩)], [], .standard⟩

/-- `title meta { owner { name } size } friend.name meta.owner.home { city } friend { age }` -/
def selected : Selection :=
  [("title", .marker included),
    ("meta", .group [("owner", .group [("name", .marker included)]), ("size", .marker included)]),
    ("friend.name", .marker included), ("meta.owner.home", .group [("city", .marker included)]),
    ("friend", .group [("age", .marker included)])]

theorem named_selected : Fits named selected := by
  simp only [selected, Fits, List.forall_mem_cons, List.not_mem_nil, has_group_iff, has_marker_iff,
    named, ne_eq, reduceCtorEq, not_false_eq_true, false_imp_iff, implies_true, true_and, and_true]
  decide +kernel

/-- Both spellings of a field ask the same join, and the owner comes up first. -/
theorem owner_joined_before_friend :
    Fits named selected ∧
      (Join.plan posts selected).map Join.field = ["meta.owner", "friend"] ∧
      ∀ join ∈ Join.plan posts selected, join.field = "friend" →
        ∀ path, Covers join.selection path ↔ ["name"] <+: path ∨ ["age"] <+: path := by
  have hasked : Join.asked posts selected = [("meta.owner", ["name"]), ("friend", ["name"]),
      ("meta.owner", ["home", "city"]), ("friend", ["age"])] := by decide +kernel
  obtain ⟨hfields, hcovers, -⟩ := Join.plan_meets_requests posts named_selected
  rw [hasked] at hfields hcovers
  refine ⟨named_selected, hfields.trans (by decide), fun join hjoin hfield path => ?_⟩
  rw [(hcovers join hjoin).2 path, hfield]
  simp

end PostsWithOwners

end DocQuery
