import DocQuery.Proofs.Path.Values
import DocQuery.Proofs.Selection.Covering
import DocQuery.Proofs.Store.Projection
import DocQuery.Proofs.Value.Order

/-!
# What a projection stage keeps

A projection stage that takes fields keeps everything at the paths that it covers
(`Projection.Asks.project_of_covers`), and no scalar at any other (`Projection.Asks.get_take_of_not_covers`).
Whether it takes fields or leaves fields out, it puts no value where there was none
(`Projection.Asks.get_project_eq_none`).
-/

namespace DocQuery.Projection

open Selection

variable {relevance : Nat} {m : Int32} {entries tree : Selection} {scored : Bool}
  {body source doc projected : Document} {key : String} {path rest : Path} {found value : Value}

/-! ### One key at a time -/

section Body

variable (h : Asks tree scored body) (hwritten : Fits (written m) tree) (hnested : Nested tree)
include h hwritten hnested

/-- At every key but that of the relevance a body takes what its selection names. -/
theorem Asks.bind_taken (hkey : scored = true → key ≠ scoreField) (found : Option Value) :
    (body.get? key).bind (taken relevance found) =
      (tree.lookup key).bind fun node => takeValue relevance found node.toValue := by
  rw [h.get?, if_neg fun hscore => hkey hscore.1 hscore.2, Option.bind_map]
  refine Option.bind_congr fun node hnode => ?_
  have hmem := Keyed.mem_of_lookup hnode
  have hmeta := isMeta_toValue (hwritten _ hmem).2 (hnested.2 _ hmem).2
  simp [taken, hmeta]

/-- At every key but that of the relevance a body leaves what its selection does not name. -/
theorem Asks.get?_restFields (hdoc : doc.WellKeyed) (hkey : scored = true → key ≠ scoreField) :
    Document.get? (restFields relevance doc body) key =
      match tree.lookup key with
      | none => doc.get? key
      | some node => restValue relevance (doc.get? key) node.toValue := by
  rw [Projection.get?_restFields h.distinct (Document.wellKeyed_iff.1 hdoc).1, h.get?,
    if_neg fun hscore => hkey hscore.1 hscore.2]
  cases hnode : tree.lookup key with
  | none => rfl
  | some node =>
    have hmem := Keyed.mem_of_lookup hnode
    have hmeta := isMeta_toValue (hwritten _ hmem).2 (hnested.2 _ hmem).2
    simp [left, hmeta]

end Body

/-- The fields of a group are such a body. -/
theorem asks_toFields (hnested : Nested entries) : Asks entries false (toFields entries) := by
  have hasks := asks_toDocument hnested
  rwa [Selection.toDocument, ofFields_toFields hnested.1] at hasks

theorem get?_takeFields_toFields (hwritten : Fits (written m) entries) (hnested : Nested entries)
    (source : Document) (key : String) :
    Document.get? (takeFields relevance source [] (toFields entries)) key =
      (entries.lookup key).bind fun node => takeValue relevance (source.get? key) node.toValue := by
  rw [(flagBody_toFields (fun _ => True) trivial hwritten hnested).get?_takeFields, Document.get?,
    lookup_toFields, Option.bind_map]
  rfl

/-! ### What is covered, and what is not -/

/-- Of a value all is taken that the node covers. -/
theorem inside_takeValue_of_covers (node : Node) (hwritten : node.Has (written included))
    (hnested : node.Has nested) : ∀ (path : Path) (found : Option Value), node.Covers path →
      (takeValue relevance found node.toValue).bind (Path.inside · path) =
        found.bind (Path.inside · path) := by
  refine Node.ind_written hwritten hnested ?marker ?group
  case marker =>
    intro path found _
    simp [Node.toValue, takeValue, truthy_included]
  case group =>
    intro entries _ hwritten hnested ih path found hcovers
    rw [node_covers_group_iff] at hcovers
    obtain ⟨key, rest, rfl⟩ := List.exists_cons_of_ne_nil hcovers.ne_nil
    obtain ⟨node, hnode, hrest⟩ := (covers_key_iff hnested).1 hcovers
    rw [toValue_group hnested]
    unfold takeValue
    cases found with
    | none => rfl
    | some found =>
      cases found with
      | document fields =>
        show Path.get _ (key :: rest) = Path.get fields (key :: rest)
        rw [Path.get_cons, Path.get_cons, get?_takeFields_toFields hwritten hnested, hnode]
        exact ih key node (Keyed.mem_of_lookup hnode) rest (Document.get? fields key) hrest
      | _ => rfl

theorem below_takeValue_of_covers {node : Node} (hwritten : node.Has (written included))
    (hnested : node.Has nested) {path : Path} (hcovers : node.Covers path) (found : Option Value) :
    (takeValue relevance found node.toValue).elim [] (Path.below · path) =
      found.elim [] (Path.below · path) := by
  have htree := flagTree_toValue (fun value => value.truthy = true) truthy_included node hwritten hnested
  refine takeValue_of_covered htree path found ?_
  rwa [flagPaths_toValue node hnested]

/-- Of a scalar nothing is taken by what goes on behind it. -/
theorem inside_takeValue_of_not_covers (node : Node) (hwritten : node.Has (written m))
    (hnested : node.Has nested) : ∀ (path : Path) (found : Option Value), ¬node.Covers path →
      (∀ value, found.bind (Path.inside · path) = some value → value.IsScalar) →
        (takeValue relevance found node.toValue).bind (Path.inside · path) = none := by
  refine Node.ind_written hwritten hnested ?marker ?group
  case marker => exact fun path _ hnot => absurd (covers_marker m path) hnot
  case group =>
    intro entries _ hwritten hnested ih path found hnot hscalar
    have hfields : ∀ fields : Document, ∀ key rest, ¬Covers entries (key :: rest) →
        (∀ value, Path.get fields (key :: rest) = some value → value.IsScalar) →
          Path.get (takeFields relevance fields [] (toFields entries)) (key :: rest) = none := by
      intro fields key rest hnot hscalar
      rw [Path.get_cons, get?_takeFields_toFields hwritten hnested]
      rw [covers_key_iff hnested] at hnot
      cases hnode : entries.lookup key with
      | none => rfl
      | some node =>
        refine ih key node (Keyed.mem_of_lookup hnode) rest (fields.get? key)
          (fun hrest => hnot ⟨node, hnode, hrest⟩) fun value hvalue => hscalar value ?_
        rw [Path.get_cons, hvalue]
    rw [toValue_group hnested]
    unfold takeValue
    cases found with
    | none => rfl
    | some found =>
      cases path with
      | nil =>
        have := hscalar found rfl
        cases found <;> first | rfl | exact this.elim
      | cons key rest =>
        cases found with
        | document fields => exact hfields fields key rest (node_covers_group_iff.not.1 hnot) hscalar
        | _ => rfl

/-! ### Nothing is added -/

/-- Where there is nothing in a value, nothing is taken of it. -/
theorem inside_takeValue_eq_none (node : Node) (hwritten : node.Has (written m))
    (hnested : node.Has nested) : ∀ (path : Path) (found : Option Value), found.bind (Path.inside · path) = none →
      (takeValue relevance found node.toValue).bind (Path.inside · path) = none := by
  refine Node.ind_written hwritten hnested ?marker ?group
  case marker =>
    intro path found hnone
    rw [Node.toValue, takeValue]
    · split
      · exact hnone
      · rfl
    · simp
  case group =>
    intro entries _ hwritten hnested ih path found hnone
    rw [toValue_group hnested]
    unfold takeValue
    cases found with
    | none => rfl
    | some found =>
      cases path with
      | nil => cases hnone
      | cons key rest =>
        cases found with
        | document fields =>
          have hnone : Path.get fields (key :: rest) = none := hnone
          show Path.get _ (key :: rest) = none
          rw [Path.get_cons] at hnone
          rw [Path.get_cons, get?_takeFields_toFields hwritten hnested]
          cases hnode : entries.lookup key with
          | none => rfl
          | some node => exact ih key node (Keyed.mem_of_lookup hnode) rest _ hnone
        | _ => rfl

/-- Where there is nothing in a value, nothing is left of it. -/
theorem inside_restValue_eq_none (node : Node) (hwritten : node.Has (written m))
    (hnested : node.Has nested) : ∀ (path : Path) (found : Option Value), (∀ value, found = some value → value.WellKeyed) →
      found.bind (Path.inside · path) = none →
        (restValue relevance found node.toValue).bind (Path.inside · path) = none := by
  refine Node.ind_written hwritten hnested ?marker ?group
  case marker =>
    intro path found _ hnone
    rw [Node.toValue, restValue]
    · split
      · exact hnone
      · rfl
    · simp
  case group =>
    intro entries _ hwritten hnested ih path found hkeyed hnone
    rw [toValue_group hnested]
    unfold restValue
    cases found with
    | none => rfl
    | some found =>
      cases path with
      | nil => cases hnone
      | cons key rest =>
        cases found with
        | document fields =>
          have hkeyed : Document.WellKeyed fields := hkeyed _ rfl
          have hnone : Path.get fields (key :: rest) = none := hnone
          show Path.get _ (key :: rest) = none
          rw [Path.get_cons] at hnone
          rw [Path.get_cons,
            (asks_toFields hnested).get?_restFields hwritten hnested hkeyed (by simp)]
          cases hnode : entries.lookup key with
          | none => exact hnone
          | some node =>
            exact ih key node (Keyed.mem_of_lookup hnode) rest _ (fun _ => hkeyed.get) hnone
        | _ => rfl

/-! ### Whole documents -/

section Body

variable (h : Asks tree scored body) (hnested : Nested tree)
  (hscore : scored = true → path.head? ≠ some scoreField)
include h hnested hscore

/-- What is covered is taken as it is, and so is `_id`. -/
theorem Asks.get_take_of_covers (hwritten : Fits (written included) tree)
    (hcovers : path.head? = some "_id" ∨ Covers tree path) (source : Document) :
    Path.get (take relevance source body) path = Path.get source path ∧
      Path.candidates (take relevance source body) path = Path.candidates source path := by
  cases path with
  | nil => exact ⟨rfl, rfl⟩
  | cons key rest =>
    by_cases hid : key = "_id"
    · subst hid
      have hget : (take relevance source body).get? "_id" = _ := h.get?_take_id hwritten source
      exact ⟨Path.get_congr rest hget, Path.candidates_congr rest hget⟩
    · have hkey : scored = true → key ≠ scoreField := fun hscored e => hscore hscored (by simp [e])
      obtain ⟨node, hnode, hrest⟩ :=
        (covers_key_iff hnested).1 (hcovers.resolve_left (by simpa using hid))
      have hmem := Keyed.mem_of_lookup hnode
      simp only [Path.get_cons, Path.candidates_eq_elim, get?_take h.distinct source hid,
        h.bind_taken hwritten hnested hkey, hnode]
      exact ⟨inside_takeValue_of_covers node (hwritten _ hmem).2 (hnested.2 _ hmem).2 rest _ hrest,
        below_takeValue_of_covers (hwritten _ hmem).2 (hnested.2 _ hmem).2 hrest _⟩

/-- A scalar that is not covered is not taken. -/
theorem Asks.get_take_of_not_covers (hwritten : Fits (written m) tree)
    (hid : path.head? ≠ some "_id") (hnot : ¬Covers tree path) {source : Document}
    (hscalar : ∀ value, Path.get source path = some value → value.IsScalar) :
    Path.get (take relevance source body) path = none := by
  cases path with
  | nil => rfl
  | cons key rest =>
    have hkey : scored = true → key ≠ scoreField := fun hscored e => hscore hscored (by simp [e])
    rw [Path.get_cons, get?_take h.distinct source (by simpa using hid),
      h.bind_taken hwritten hnested hkey]
    cases hnode : tree.lookup key with
    | none => rfl
    | some node =>
      have hmem := Keyed.mem_of_lookup hnode
      refine inside_takeValue_of_not_covers node (hwritten _ hmem).2 (hnested.2 _ hmem).2 rest _
        (fun hrest => hnot ((covers_key_iff hnested).2 ⟨node, hnode, hrest⟩)) fun value hvalue => ?_
      exact hscalar value (by rw [Path.get_cons, hvalue])

/-- Whatever a projection stage is, it puts no value where there was none. -/
theorem Asks.get_project_eq_none (hwritten : Fits (written m) tree) (hdoc : doc.WellKeyed)
    (hproject : project relevance doc body = .ok projected) (hnone : Path.get doc path = none) :
    Path.get projected path = none := by
  rw [project, h.expand_eq hwritten hnested] at hproject
  obtain ⟨inclusion, -, rfl⟩ := Outcome.map_eq_ok_iff.1 hproject
  cases path with
  | nil => rfl
  | cons key rest =>
    have hkey : scored = true → key ≠ scoreField := fun hscored e => hscore hscored (by simp [e])
    rw [Path.get_cons] at hnone ⊢
    split
    · by_cases hid : key = "_id"
      · subst hid
        rw [get?_id_take h.distinct]
        split
        · exact hnone
        · rfl
      · rw [get?_take h.distinct doc hid, h.bind_taken hwritten hnested hkey]
        cases hnode : tree.lookup key with
        | none => rfl
        | some node =>
          have hmem := Keyed.mem_of_lookup hnode
          exact inside_takeValue_eq_none node (hwritten _ hmem).2 (hnested.2 _ hmem).2 rest _ hnone
    · rw [h.get?_restFields hwritten hnested hdoc hkey]
      cases hnode : tree.lookup key with
      | none => exact hnone
      | some node =>
        have hmem := Keyed.mem_of_lookup hnode
        exact inside_restValue_eq_none node (hwritten _ hmem).2 (hnested.2 _ hmem).2 rest _
          (fun _ => hdoc.get) hnone

/-- A projection stage keeps everything at the paths that it covers. -/
theorem Asks.project_of_covers (hwritten : Fits (written included) tree) (hcovers : Covers tree path)
    (hproject : project relevance doc body = .ok projected) :
    Path.get projected path = Path.get doc path ∧
      Path.candidates projected path = Path.candidates doc path := by
  have hkey : ∃ key ∈ Keyed.keys tree, ¬(scored = true ∧ key = scoreField) := by
    obtain ⟨key, rest, rfl⟩ := List.exists_cons_of_ne_nil hcovers.ne_nil
    obtain ⟨node, hnode, -⟩ := (covers_key_iff hnested).1 hcovers
    exact ⟨key, List.mem_map.2 ⟨_, Keyed.mem_of_lookup hnode, rfl⟩, fun ⟨hscored, e⟩ =>
      hscore hscored (by simp [e])⟩
  rw [project, h.expand_eq hwritten hnested, h.isInclusion_included hwritten hnested hkey] at hproject
  obtain rfl : take relevance doc body = projected := Except.ok.inj hproject
  exact h.get_take_of_covers hnested hscore hwritten (.inr hcovers) doc

end Body

end DocQuery.Projection
