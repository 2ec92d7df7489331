import DocQuery.Proofs.Outcome
import DocQuery.Proofs.Selection.Shapes
import DocQuery.Proofs.Store.Flags
import DocQuery.SortOrder

/-!
# Bodies of projection stages

A selection without dotted keys is its own body: nothing in it has to be written out once more
(`Asks.expand_eq`).  Whether the body takes fields or leaves fields out depends on its markers
(`Asks.isInclusion_included`, `Asks.isInclusion_excluded`); a body that asks for nothing but the
relevance of a document leaves out nothing and takes everything.
-/

namespace DocQuery

/-! ### Selections as fields -/

namespace Selection

theorem toFields_eq_map (tree : Selection) :
    toFields tree = tree.map fun (key, node) => (key, node.toValue) := by
  induction tree with
  | nil => rfl
  | cons entry rest ih =>
    obtain ⟨key, node⟩ := entry
    rw [toFields, ih, List.map_cons]

theorem keys_toFields (tree : Selection) : Keyed.keys (toFields tree) = Keyed.keys tree := by
  rw [toFields_eq_map, Keyed.keys, List.map_map]
  rfl

theorem lookup_toFields (tree : Selection) (key : String) :
    (toFields tree).lookup key = (tree.lookup key).map Node.toValue := by
  rw [toFields_eq_map]
  exact Keyed.lookup_map_value (fun _ => Node.toValue) key tree

theorem distinct_toFields {tree : Selection} (h : Keyed.Distinct tree) :
    Keyed.Distinct (toFields tree) := by
  rw [Keyed.Distinct, keys_toFields]
  exact h

theorem ofFields_toFields {tree : Selection} (h : Keyed.Distinct tree) :
    Document.ofFields (toFields tree) = toFields tree :=
  Keyed.ofList_of_distinct (distinct_toFields h)

theorem toValue_group {entries : Selection} (h : Nested entries) :
    (Node.group entries).toValue = .document (toFields entries) := by
  rw [Node.toValue, ofFields_toFields h.1]

theorem flagPathsOf_toFields_of {tree : Selection} (htree : Fits nested tree)
    (hnodes : ∀ entry ∈ tree, entry.2.Has nested → entry.2.toValue.flagPaths = entry.2.leaves) :
    flagPathsOf (toFields tree) = leaves tree := by
  induction tree with
  | nil => rfl
  | cons entry rest ih =>
    obtain ⟨key, node⟩ := entry
    obtain ⟨⟨hkey, hnode⟩, hrest⟩ := List.forall_mem_cons.1 htree
    rw [List.forall_mem_cons] at hnodes
    rw [toFields, flagPathsOf, leaves, ih hrest hnodes.2, hnodes.1 hnode, Path.ofText_of_plain hkey]
    rfl

/-- The flags of a selection without dotted keys stand at its leaves. -/
theorem flagPaths_toValue (node : Node) : node.Has nested → node.toValue.flagPaths = node.leaves := by
  induction node using Node.ind with
  | marker n => exact fun _ => rfl
  | group entries ih =>
    intro h
    rw [toValue_group (has_group_iff.1 h), Value.flagPaths, leaves_group]
    exact flagPathsOf_toFields_of (has_group_iff.1 h).2 ih

end Selection

namespace Projection

open Selection

variable {m : Int32}

/-- The flag that asks for the relevance of a document. -/
abbrev relevanceFlag : Value := Direction.relevance.toValue

/-- Behind a key, a selection without dotted keys has the leaves of the node there. -/
theorem mem_leaves_key_iff {tree : Selection} (htree : Nested tree) {key : String} {rest : Path} :
    (∃ node, tree.lookup key = some node ∧ rest ∈ node.toValue.flagPaths) ↔ key :: rest ∈ leaves tree := by
  constructor
  · rintro ⟨node, hnode, hrest⟩
    have hmem := Keyed.mem_of_lookup hnode
    rw [flagPaths_toValue node (htree.2 _ hmem).2] at hrest
    exact mem_leaves_of_fits_nested htree.2 hmem hrest
  · intro hmem
    obtain ⟨⟨name, node⟩, hentry, below, hbelow, heq⟩ := mem_leaves_iff.1 hmem
    rw [Path.ofText_of_plain (htree.2 _ hentry).1] at heq
    obtain ⟨rfl, rfl⟩ := List.cons.inj heq
    refine ⟨node, Keyed.lookup_of_mem htree.1 hentry, ?_⟩
    rwa [flagPaths_toValue node (htree.2 _ hentry).2]

theorem flagBody_toFields_of {kind : Value → Prop} {entries : Selection}
    (hwritten : Fits (written m) entries) (hnested : Nested entries)
    (hnodes : ∀ key node, (key, node) ∈ entries → FlagTree kind node.toValue) :
    FlagBody kind (toFields entries) where
  distinct := distinct_toFields hnested.1
  no_meta := by
    rw [toFields_eq_map, List.forall_mem_map]
    exact fun entry hentry hmeta => ((hwritten entry hentry).1 _ hmeta).2 rfl
  trees := by
    rw [toFields_eq_map, List.forall_mem_map]
    exact fun entry hentry => hnodes entry.1 entry.2 hentry

/-- The flags of a selection that a text wrote are its markers. -/
theorem flagTree_toValue (kind : Value → Prop) (hkind : kind (.int32 m)) (node : Node)
    (hwritten : node.Has (written m)) (hnested : node.Has nested) : FlagTree kind node.toValue := by
  refine Node.ind_written hwritten hnested ?marker ?group
  case marker =>
    rw [Node.toValue]
    exact .flag (by simp) hkind
  case group =>
    intro entries hne hwritten hnested ih
    rw [toValue_group hnested, flagTree_document_iff]
    refine ⟨?_, flagBody_toFields_of hwritten hnested ih⟩
    rw [toFields_eq_map]
    exact List.map_eq_nil_iff.not.2 hne

theorem flagBody_toFields (kind : Value → Prop) (hkind : kind (.int32 m)) {entries : Selection}
    (hwritten : Fits (written m) entries) (hnested : Nested entries) : FlagBody kind (toFields entries) :=
  flagBody_toFields_of hwritten hnested fun _ node hmem =>
    flagTree_toValue kind hkind node (hwritten _ hmem).2 (hnested.2 _ hmem).2

theorem isMeta_toValue {node : Node} (hwritten : node.Has (written m)) (hnested : node.Has nested) :
    isMeta node.toValue = false :=
  (flagTree_toValue (fun _ => True) trivial node hwritten hnested).isMeta

/-! ### Nothing to write out -/

theorem expandFields_eq {done fields : Document} (hdistinct : Keyed.Distinct (done ++ fields))
    (hplain : ∀ field ∈ fields, Path.Plain field.1)
    (hvalues : ∀ field ∈ fields, expandValue field.2 = field.2) :
    expandFields done fields = done ++ fields := by
  induction fields generalizing done with
  | nil => rw [expandFields, List.append_nil]
  | cons field rest ih =>
    obtain ⟨key, value⟩ := field
    rw [List.forall_mem_cons] at hplain hvalues
    have hsplit : done ++ (key, value) :: rest = done ++ [(key, value)] ++ rest := by simp
    have hvalue : expandValue value = value := hvalues.1
    have hput : mergeValue none value = value := by
      cases value <;> rfl
    rw [expandFields, Path.ofText_of_plain hplain.1, adjustAt, hvalue]
    dsimp only
    rw [Keyed.adjust_of_notMem hdistinct.notMem_front, hput, hsplit]
    exact ih (hsplit ▸ hdistinct) hplain.2 hvalues.2

theorem plain_toFields {tree : Selection} (h : Fits nested tree) :
    ∀ field ∈ toFields tree, Path.Plain field.1 := by
  rw [toFields_eq_map, List.forall_mem_map]
  exact fun entry hentry => (h entry hentry).1

theorem expandValue_toValue (node : Node) (hwritten : node.Has (written m))
    (hnested : node.Has nested) : expandValue node.toValue = node.toValue := by
  refine Node.ind_written hwritten hnested ?marker ?group
  case marker =>
    rw [Node.toValue, expandValue]
    simp
  case group =>
    intro entries _ hwritten hnested ih
    have hmeta := (flagBody_toFields (fun _ => True) trivial hwritten hnested).isMeta
    rw [toValue_group hnested, expandValue, hmeta, if_neg (by simp)]
    refine congrArg Value.document (expandFields_eq ?_ (plain_toFields hnested.2) ?_)
    · exact distinct_toFields hnested.1
    · rw [toFields_eq_map, List.forall_mem_map]
      exact fun entry hentry => ih entry.1 entry.2 hentry

/-! ### Bodies -/

/-- A body that asks for the fields of a selection, and for the relevance if it is scored. -/
structure Asks (tree : Selection) (scored : Bool) (body : Document) : Prop where
  distinct : Keyed.Distinct body
  plain : ∀ field ∈ body, Path.Plain field.1
  get? : ∀ key, body.get? key =
    if scored = true ∧ key = scoreField then some relevanceFlag
    else (tree.lookup key).map Node.toValue

theorem asks_toDocument {tree : Selection} (h : Nested tree) :
    Asks tree false (Selection.toDocument tree) := by
  have hdoc : Selection.toDocument tree = toFields tree := ofFields_toFields h.1
  rw [hdoc]
  refine ⟨distinct_toFields h.1, plain_toFields h.2, ?_⟩
  intro key
  rw [if_neg (by simp)]
  exact lookup_toFields tree key

theorem Asks.score {tree : Selection} {body : Document} (h : Asks tree false body) :
    Asks tree true (body.put scoreField relevanceFlag) where
  distinct := h.distinct.adjust _ _
  plain field hfield := by
    rcases Keyed.mem_adjust hfield with hfield | rfl
    · exact h.plain field hfield
    · show Path.Plain scoreField
      decide
  get? key := by
    by_cases hkey : key = scoreField
    · subst hkey
      rw [if_pos ⟨rfl, rfl⟩]
      exact Keyed.lookup_adjust_self _ _ _
    · have hget : (body.put scoreField relevanceFlag).get? key = body.get? key :=
        Keyed.lookup_adjust_of_ne hkey _ _
      rw [hget, h.get?, if_neg (by simp), if_neg (by simp [hkey])]

variable {tree : Selection} {scored : Bool} {body : Document}

theorem Asks.mem_cases (h : Asks tree scored body) {field : String × Value} (hfield : field ∈ body) :
    field.2 = relevanceFlag ∨ ∃ node, (field.1, node) ∈ tree ∧ field.2 = node.toValue := by
  have hget : body.get? field.1 = some field.2 := Keyed.lookup_of_mem h.distinct hfield
  rw [h.get?] at hget
  split at hget
  · exact .inl (Option.some.inj hget).symm
  · obtain ⟨node, hnode, hvalue⟩ := Option.map_eq_some_iff.1 hget
    exact .inr ⟨node, Keyed.mem_of_lookup hnode, hvalue.symm⟩

/-- A body has a flag at a path if the selection has a leaf there, and one that asks for the relevance. -/
theorem Asks.mem_flagPaths_iff (h : Asks tree scored body) (hnested : Nested tree) (key : String)
    (rest : Path) : (∃ value, body.get? key = some value ∧ rest ∈ value.flagPaths) ↔
      if scored = true ∧ key = scoreField then rest ∈ relevanceFlag.flagPaths
      else key :: rest ∈ leaves tree := by
  rw [h.get?]
  split
  · simp
  · rw [← mem_leaves_key_iff hnested]
    simp [Option.map_eq_some_iff]

theorem Asks.mem_flagPathsOf_iff (h : Asks tree false body) (hnested : Nested tree) {path : Path} :
    path ∈ flagPathsOf body ↔ path ∈ leaves tree := by
  rw [DocQuery.mem_flagPathsOf_iff h.distinct]
  simp only [h.mem_flagPaths_iff hnested, Bool.false_eq_true, false_and, if_false]
  constructor
  · rintro ⟨key, rest, hmem, rfl⟩
    exact hmem
  · intro hmem
    obtain ⟨key, rest, rfl⟩ := List.exists_cons_of_ne_nil (ne_nil_of_mem_leaves hmem)
    exact ⟨key, rest, hmem, rfl⟩

theorem Asks.flagBody (h : Asks tree false body) (kind : Value → Prop) (hkind : kind (.int32 m))
    (hwritten : Fits (written m) tree) (hnested : Nested tree) : FlagBody kind body := by
  have hfield : ∀ field ∈ body, ∃ node, (field.1, node) ∈ tree ∧ field.2 = node.toValue := by
    intro field hfield
    have hget : body.get? field.1 = some field.2 := Keyed.lookup_of_mem h.distinct hfield
    rw [h.get?, if_neg (by simp)] at hget
    obtain ⟨node, hnode, hvalue⟩ := Option.map_eq_some_iff.1 hget
    exact ⟨node, Keyed.mem_of_lookup hnode, hvalue.symm⟩
  refine ⟨h.distinct, fun field hmem => ?_, fun field hmem => ?_⟩
  · obtain ⟨node, hnode, -⟩ := hfield field hmem
    exact fun hmeta => ((hwritten _ hnode).1 _ hmeta).2 rfl
  · obtain ⟨node, hnode, hvalue⟩ := hfield field hmem
    rw [hvalue]
    exact flagTree_toValue kind hkind node (hwritten _ hnode).2 (hnested.2 _ hnode).2

theorem Asks.expand_eq (h : Asks tree scored body) (hwritten : Fits (written m) tree)
    (hnested : Nested tree) : expand body = body := by
  refine expandFields_eq (by simpa using h.distinct) h.plain ?_
  intro field hfield
  rcases h.mem_cases hfield with hvalue | ⟨node, hnode, hvalue⟩
  · rw [hvalue]
    rfl
  · rw [hvalue]
    exact expandValue_toValue node (hwritten _ hnode).2 (hnested.2 _ hnode).2

/-! ### Taking fields or leaving them out -/

/-- The flags of a selection with this marker. -/
def markerFlags (m : Int32) : Flags := ⟨(Value.int32 m).truthy, !(Value.int32 m).truthy⟩

/-- All entries of a group have the same flags, and there is one. -/
theorem flagsOfFields_toFields {entries : Selection} (hne : entries ≠ [])
    (hall : ∀ entry ∈ entries, flagsOf entry.2.toValue = markerFlags m) :
    flagsOfFields false (toFields entries) = markerFlags m := by
  induction entries with
  | nil => exact absurd rfl hne
  | cons entry rest ih =>
    obtain ⟨key, node⟩ := entry
    rw [List.forall_mem_cons] at hall
    rw [toFields, flagsOfFields, if_neg (by simp), hall.1]
    cases rest with
    | nil => simp [toFields, flagsOfFields, Flags.or]
    | cons second rest =>
      rw [ih (List.cons_ne_nil second rest) hall.2]
      simp [Flags.or]

theorem flagsOf_toValue (node : Node) (hwritten : node.Has (written m))
    (hnested : node.Has nested) : flagsOf node.toValue = markerFlags m := by
  refine Node.ind_written hwritten hnested ?marker ?group
  case marker =>
    rw [Node.toValue, flagsOf]
    · rfl
    · simp
  case group =>
    intro entries hne hwritten hnested ih
    have hmeta := (flagBody_toFields (fun _ => True) trivial hwritten hnested).isMeta
    rw [toValue_group hnested, flagsOf, hmeta, if_neg (by simp)]
    exact flagsOfFields_toFields hne fun entry hentry => ih entry.1 entry.2 hentry

/-- The flags of fields, in which `_id` does not count. -/
theorem flagsOfFields_iff (fields : Document) :
    ((flagsOfFields true fields).takes = true ↔
      ∃ field ∈ fields, field.1 ≠ "_id" ∧ (flagsOf field.2).takes = true) ∧
    ((flagsOfFields true fields).leavesOut = true ↔
      ∃ field ∈ fields, field.1 ≠ "_id" ∧ (flagsOf field.2).leavesOut = true) := by
  induction fields with
  | nil => simp [flagsOfFields]
  | cons field rest ih =>
    obtain ⟨key, value⟩ := field
    rw [flagsOfFields, List.exists_mem_cons_iff, List.exists_mem_cons_iff]
    by_cases hkey : key = "_id"
    · rw [if_pos (by simpa using hkey)]
      simpa [hkey] using ih
    · rw [if_neg (by simpa using hkey)]
      simpa [-Prod.exists, hkey, Flags.or] using ⟨or_congr_right ih.1, or_congr_right ih.2⟩

theorem Asks.exists_mem_iff (h : Asks tree scored body) (hwritten : Fits (written m) tree)
    (hnested : Nested tree) {P : Flags → Prop} (hmeta : ¬ P (flagsOf relevanceFlag)) :
    (∃ field ∈ body, field.1 ≠ "_id" ∧ P (flagsOf field.2)) ↔
      P (markerFlags m) ∧
        ∃ key ∈ Keyed.keys tree, key ≠ "_id" ∧ ¬(scored = true ∧ key = scoreField) := by
  constructor
  · rintro ⟨field, hfield, hid, hP⟩
    have hget : body.get? field.1 = some field.2 := Keyed.lookup_of_mem h.distinct hfield
    rw [h.get?] at hget
    split at hget
    · rw [← Option.some.inj hget] at hP
      exact absurd hP hmeta
    · next hscore =>
      obtain ⟨node, hnode, hvalue⟩ := Option.map_eq_some_iff.1 hget
      have hmem := Keyed.mem_of_lookup hnode
      rw [← hvalue, flagsOf_toValue node (hwritten _ hmem).2 (hnested.2 _ hmem).2] at hP
      exact ⟨hP, field.1, List.mem_map.2 ⟨_, hmem, rfl⟩, hid, hscore⟩
  · rintro ⟨hP, key, hkey, hid, hscore⟩
    obtain ⟨⟨key, node⟩, hmem, rfl⟩ := List.mem_map.1 hkey
    have hget := h.get? key
    rw [if_neg hscore, Keyed.lookup_of_mem hnested.1 hmem] at hget
    refine ⟨_, Keyed.mem_of_lookup hget, hid, ?_⟩
    show P (flagsOf node.toValue)
    rwa [flagsOf_toValue node (hwritten _ hmem).2 (hnested.2 _ hmem).2]

theorem flagsOf_relevanceFlag : flagsOf relevanceFlag = ⟨false, false⟩ := by rfl

theorem truthy_included : (Value.int32 included).truthy = true := by decide

theorem truthy_excluded : (Value.int32 excluded).truthy = false := by decide

theorem truthy_toValue {node : Node} (h : node.Has (written included)) : node.toValue.truthy = true := by
  cases node with
  | marker n =>
    obtain rfl : n = included := has_marker_iff.1 h
    exact truthy_included
  | group entries => rfl

/-- A body of fields to take is read as one, unless it asks for nothing but the relevance. -/
theorem Asks.isInclusion_included (h : Asks tree scored body) (hwritten : Fits (written included) tree)
    (hnested : Nested tree)
    (hkey : ∃ key ∈ Keyed.keys tree, ¬(scored = true ∧ key = scoreField)) :
    isInclusion body = .ok true := by
  have hnone : (flagsOfFields true body).leavesOut = false := by
    rw [← Bool.not_eq_true, (flagsOfFields_iff body).2,
      h.exists_mem_iff hwritten hnested (P := fun flags => flags.leavesOut = true)
        (by simp [flagsOf_relevanceFlag])]
    simp [markerFlags, truthy_included]
  rw [isInclusion]
  dsimp only
  rw [hnone, if_neg (by simp)]
  obtain ⟨key, hkey, hscore⟩ := hkey
  by_cases hid : key = "_id"
  · subst hid
    obtain ⟨⟨name, node⟩, hmem, hname⟩ := List.mem_map.1 hkey
    obtain rfl : name = "_id" := hname
    have hget := h.get? "_id"
    rw [if_neg hscore, Keyed.lookup_of_mem hnested.1 hmem] at hget
    rw [hget]
    simp [truthy_toValue (hwritten _ hmem).2]
  · have htakes : (flagsOfFields true body).takes = true := by
      rw [(flagsOfFields_iff body).1, h.exists_mem_iff hwritten hnested
        (P := fun flags => flags.takes = true) (by simp [flagsOf_relevanceFlag])]
      exact ⟨by simp [markerFlags, truthy_included], key, hkey, hid, hscore⟩
    simp [htakes]

/-- A body of fields to leave out is read as one if it names a field apart from `_id`. -/
theorem Asks.isInclusion_excluded (h : Asks tree scored body) (hwritten : Fits (written excluded) tree)
    (hnested : Nested tree)
    (hkey : ∃ key ∈ Keyed.keys tree, key ≠ "_id" ∧ ¬(scored = true ∧ key = scoreField)) :
    isInclusion body = .ok false := by
  have hnone : (flagsOfFields true body).takes = false := by
    rw [← Bool.not_eq_true, (flagsOfFields_iff body).1,
      h.exists_mem_iff hwritten hnested (P := fun flags => flags.takes = true)
        (by simp [flagsOf_relevanceFlag])]
    simp [markerFlags, truthy_excluded]
  have hleaves : (flagsOfFields true body).leavesOut = true := by
    rw [(flagsOfFields_iff body).2, h.exists_mem_iff hwritten hnested
      (P := fun flags => flags.leavesOut = true) (by simp [flagsOf_relevanceFlag])]
    exact ⟨by simp [markerFlags, truthy_excluded], hkey⟩
  rw [isInclusion]
  simp [hnone, hleaves]

/-- A body that asks for nothing but the relevance is read as one of fields to leave out. -/
theorem Asks.isInclusion_relevance (h : Asks tree true body) (hwritten : Fits (written m) tree)
    (hnested : Nested tree) (hkeys : ∀ key ∈ Keyed.keys tree, key = scoreField) :
    isInclusion body = .ok false := by
  have hflags : ∀ P : Flags → Prop, ¬ P (flagsOf relevanceFlag) →
      ¬ ∃ field ∈ body, field.1 ≠ "_id" ∧ P (flagsOf field.2) := by
    intro P hmeta hfield
    obtain ⟨-, key, hkey, -, hscore⟩ := (h.exists_mem_iff hwritten hnested hmeta).1 hfield
    exact hscore ⟨rfl, hkeys key hkey⟩
  have htakes : (flagsOfFields true body).takes = false := by
    rw [← Bool.not_eq_true, (flagsOfFields_iff body).1]
    exact hflags (fun flags => flags.takes = true) (by simp [flagsOf_relevanceFlag])
  have hleaves : (flagsOfFields true body).leavesOut = false := by
    rw [← Bool.not_eq_true, (flagsOfFields_iff body).2]
    exact hflags (fun flags => flags.leavesOut = true) (by simp [flagsOf_relevanceFlag])
  have hid : body.get? "_id" = none := by
    have hnone : tree.lookup "_id" = none := by
      rw [Keyed.lookup_eq_none_iff]
      exact fun hmem => absurd (hkeys _ hmem) (by decide)
    rw [h.get?, if_neg (by decide), hnone]
    rfl
  rw [isInclusion]
  simp [htakes, hleaves, hid]

end Projection

end DocQuery
