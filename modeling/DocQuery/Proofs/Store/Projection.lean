import DocQuery.Proofs.Path.Candidates
import DocQuery.Proofs.Store.Bodies
import DocQuery.Proofs.Store.Flags

/-!
# What a projection stage leaves of a document

The body is one that asks for the fields of a selection (`Asks`), and what is found at a path after the
stage depends on how the path stands to the leaves of the selection:

* fields that are taken: nothing at a path that is apart from all of them
  (`candidates_project_included`);
* fields that are left out: nothing at any of them (`candidates_project_excluded`);
* the relevance alone: all other fields as before (`candidates_project_relevance`).

Taking fields and leaving them out keeps the keys of a document distinct (`wellKeyed_project`).
-/

namespace DocQuery.Projection

open Selection

variable {relevance : Nat} {m : Int32}

/-! ### Taking fields -/

/-- A body that takes fields takes `_id` with them. -/
theorem Asks.get?_take_id {tree : Selection} {scored : Bool} {body : Document}
    (h : Asks tree scored body) (hwritten : Fits (written included) tree) (source : Document) :
    (take relevance source body).get? "_id" = source.get? "_id" := by
  have hname : "_id" ≠ scoreField := by decide
  rw [get?_id_take h.distinct, if_pos]
  rw [h.get?, if_neg fun hscore => hname hscore.2, Option.all_map, Option.all_eq_true]
  exact fun node hnode => truthy_toValue (hwritten _ (Keyed.mem_of_lookup hnode)).2

theorem below_scoreValue (key : String) (rest : Path) :
    Path.below (scoreValue relevance) (key :: rest) = [] := rfl

/-- Nothing is found at a path that is apart from all fields to take, if it is not the field of the
relevance. -/
theorem candidates_take {tree : Selection} {scored : Bool} {body : Document}
    (h : Asks tree scored body) (hwritten : Fits (written m) tree) (hnested : Nested tree)
    {path : Path} (hapart : ∀ leaf ∈ leaves tree, Path.Apart leaf path) (hid : "_id" ∉ path)
    (hpath : path ≠ []) (hscore : scored = true → path ≠ [scoreField]) (source : Document) :
    Path.candidates (take relevance source body) path = [] := by
  obtain ⟨key, rest, rfl⟩ := List.exists_cons_of_ne_nil hpath
  have hkey : key ≠ "_id" := fun e => hid (by simp [e])
  rw [Path.candidates_eq_elim, get?_take h.distinct source hkey, h.get?]
  split
  · next hflag =>
    obtain ⟨hscored, rfl⟩ := hflag
    cases rest with
    | nil => exact absurd rfl (hscore hscored)
    | cons next rest => rfl
  · cases hnode : tree.lookup key with
    | none => rfl
    | some node =>
      have hmem := Keyed.mem_of_lookup hnode
      have htree := flagTree_toValue (fun _ => True) trivial node (hwritten _ hmem).2 (hnested.2 _ hmem).2
      rw [Option.map_some, Option.bind_some, htree.taken_eq]
      exact takeValue_of_apart htree rest _ fun leaf hleaf =>
        Path.apart_cons_iff.1 (hapart _ ((mem_leaves_key_iff hnested).1 ⟨node, hnode, hleaf⟩))

/-! ### Leaving fields out -/

/-- Nothing is found at a field that is left out, if it does not begin with the field of the
relevance. -/
theorem candidates_restFields {tree : Selection} {scored : Bool} {body : Document}
    (h : Asks tree scored body) (hwritten : Fits (written excluded) tree) (hnested : Nested tree)
    {leaf : Path} (hleaf : leaf ∈ leaves tree)
    (hscore : scored = true → leaf.head? ≠ some scoreField) {doc : Document}
    (hdoc : doc.WellKeyed) : Path.candidates (restFields relevance doc body) leaf = [] := by
  obtain ⟨⟨key, node⟩, hnode, rest, hrest, rfl⟩ := mem_leaves_iff.1 hleaf
  rw [Path.ofText_of_plain (hnested.2 _ hnode).1, List.singleton_append] at hscore ⊢
  have hget : body.get? key = some node.toValue := by
    rw [h.get?, if_neg, Keyed.lookup_of_mem hnested.1 hnode]
    · rfl
    · rintro ⟨hscored, rfl⟩
      exact hscore hscored rfl
  have htree := flagTree_toValue (fun value => value.truthy = false) truthy_excluded node
    (hwritten _ hnode).2 (hnested.2 _ hnode).2
  rw [Path.candidates_eq_elim, get?_restFields h.distinct (Document.wellKeyed_iff.1 hdoc).1, hget]
  dsimp only
  rw [htree.left_eq]
  refine restValue_of_covered htree rest _ (fun _ => hdoc.get) ⟨rest, ?_, List.prefix_rfl⟩
  rwa [flagPaths_toValue node (hnested.2 _ hnode).2]

/-! ### The whole stage -/

section Project

variable {tree : Selection} {scored : Bool} {body doc projected : Document}

/-- After a stage that takes fields, nothing is found at a path that is apart from all of them, if it is
not the field of the relevance. -/
theorem candidates_project_included (h : Asks tree scored body)
    (hwritten : Fits (written included) tree) (hnested : Nested tree)
    (hkey : ∃ key ∈ Keyed.keys tree, ¬(scored = true ∧ key = scoreField))
    (hproject : project relevance doc body = .ok projected)
    {path : Path} (hapart : ∀ leaf ∈ leaves tree, Path.Apart leaf path) (hid : "_id" ∉ path)
    (hpath : path ≠ []) (hscore : scored = true → path ≠ [scoreField]) :
    Path.candidates projected path = [] := by
  rw [project, h.expand_eq hwritten hnested, h.isInclusion_included hwritten hnested hkey] at hproject
  obtain rfl : take relevance doc body = projected := Except.ok.inj hproject
  exact candidates_take h hwritten hnested hapart hid hpath hscore doc

/-- After a stage that leaves fields out, nothing is found at any of them, if it does not begin with the
field of the relevance. -/
theorem candidates_project_excluded (h : Asks tree scored body)
    (hwritten : Fits (written excluded) tree) (hnested : Nested tree) (hdoc : doc.WellKeyed)
    (hproject : project relevance doc body = .ok projected) {leaf : Path} (hleaf : leaf ∈ leaves tree)
    (hid : "_id" ∉ leaf) (hscore : scored = true → leaf.head? ≠ some scoreField) :
    Path.candidates projected leaf = [] := by
  have hkey : ∃ key ∈ Keyed.keys tree, key ≠ "_id" ∧ ¬(scored = true ∧ key = scoreField) := by
    obtain ⟨⟨key, node⟩, hnode, rest, hrest, rfl⟩ := mem_leaves_iff.1 hleaf
    rw [Path.ofText_of_plain (hnested.2 _ hnode).1, List.singleton_append] at hid hscore
    refine ⟨key, List.mem_map.2 ⟨_, hnode, rfl⟩, ?_, ?_⟩
    · rintro rfl
      exact hid List.mem_cons_self
    · rintro ⟨hscored, rfl⟩
      exact hscore hscored rfl
  rw [project, h.expand_eq hwritten hnested, h.isInclusion_excluded hwritten hnested hkey] at hproject
  obtain rfl : restFields relevance doc body = projected := Except.ok.inj hproject
  exact candidates_restFields h hwritten hnested hleaf hscore hdoc

/-- A stage that asks for nothing but the relevance sets it, and leaves all the other fields. -/
theorem candidates_project_relevance (h : Asks tree true body) (hwritten : Fits (written m) tree)
    (hnested : Nested tree) (hkeys : ∀ key ∈ Keyed.keys tree, key = scoreField) (hdoc : doc.WellKeyed)
    (hproject : project relevance doc body = .ok projected) {path : Path}
    (hpath : path.head? ≠ some scoreField) :
    Path.candidates projected path = Path.candidates doc path := by
  rw [project, h.expand_eq hwritten hnested, h.isInclusion_relevance hwritten hnested hkeys] at hproject
  obtain rfl : restFields relevance doc body = projected := Except.ok.inj hproject
  cases path with
  | nil => rfl
  | cons key rest =>
    have hscore : key ≠ scoreField := fun e => hpath (by simp [e])
    have hnone : body.get? key = none := by
      have hlookup : tree.lookup key = none := by
        rw [Keyed.lookup_eq_none_iff]
        exact fun hmem => hscore (hkeys key hmem)
      rw [h.get?, if_neg (by simp [hscore]), hlookup]
      rfl
    refine Path.candidates_congr rest ?_
    rw [get?_restFields h.distinct (Document.wellKeyed_iff.1 hdoc).1, hnone]

end Project

/-! ### The relevance -/

/-- A scored body sets the field of the relevance, whether it takes fields or leaves fields out. -/
theorem get?_score {tree : Selection} {body projected : Document} (h : Asks tree true body)
    (hwritten : Fits (written m) tree) (hnested : Nested tree) {doc : Document} (hdoc : doc.WellKeyed)
    (hproject : project relevance doc body = .ok projected) :
    projected.get? scoreField = some (scoreValue relevance) := by
  rw [project, h.expand_eq hwritten hnested] at hproject
  obtain ⟨inclusion, -, rfl⟩ := Outcome.map_eq_ok_iff.1 hproject
  have hget : body.get? scoreField = some relevanceFlag := by rw [h.get?, if_pos ⟨rfl, rfl⟩]
  split
  · rw [get?_take h.distinct doc (by decide), hget]
    rfl
  · rw [get?_restFields h.distinct (Document.wellKeyed_iff.1 hdoc).1, hget]
    rfl

/-! ### Distinct keys -/

mutual

theorem wellKeyed_takeValue (flag : Value) {found : Option Value} {value : Value}
    (hfound : ∀ value, found = some value → value.WellKeyed)
    (h : takeValue relevance found flag = some value) : value.WellKeyed := by
  cases flag with
  | document flags =>
    rcases found with _ | found
    · cases h
    · have hfound := hfound found rfl
      unfold takeValue at h
      cases found with
      | document fields =>
        obtain rfl := Option.some.inj h
        exact wellKeyed_takeFields flags hfound Document.wellKeyed_nil
      | array items =>
        obtain rfl := Option.some.inj h
        rw [Value.wellKeyed_array_iff] at hfound ⊢
        intro item hitem
        obtain ⟨original, horiginal, hitem⟩ := List.mem_filterMap.1 hitem
        cases original with
        | document fields =>
          obtain rfl := Option.some.inj hitem
          exact wellKeyed_takeFields flags (hfound _ horiginal) Document.wellKeyed_nil
        | _ => cases hitem
      | _ => cases h
  | _ =>
    unfold takeValue at h
    split at h
    · exact hfound value h
    · cases h

theorem wellKeyed_takeFields (flags : Document) {source done : Document} (hsource : source.WellKeyed)
    (hdone : done.WellKeyed) : (takeFields relevance source done flags).WellKeyed := by
  cases flags with
  | nil => exact hdone
  | cons field rest =>
    obtain ⟨key, flag⟩ := field
    rw [takeFields]
    refine wellKeyed_takeFields rest hsource ?_
    split
    · exact hdone.put key trivial
    · split
      · next value hvalue =>
        exact hdone.put key (wellKeyed_takeValue flag (fun value => hsource.get) hvalue)
      · exact hdone

end

mutual

theorem wellKeyed_restValue (flag : Value) {found : Option Value} {value : Value}
    (hfound : ∀ value, found = some value → value.WellKeyed)
    (h : restValue relevance found flag = some value) : value.WellKeyed := by
  cases flag with
  | document flags =>
    rcases found with _ | found
    · cases h
    · have hfound := hfound found rfl
      unfold restValue at h
      cases found with
      | document fields =>
        obtain rfl := Option.some.inj h
        exact wellKeyed_restFields flags hfound
      | array items =>
        obtain rfl := Option.some.inj h
        rw [Value.wellKeyed_array_iff] at hfound ⊢
        intro item hitem
        obtain ⟨original, horiginal, rfl⟩ := List.mem_map.1 hitem
        cases original with
        | document fields => exact wellKeyed_restFields flags (hfound _ horiginal)
        | _ => exact hfound _ horiginal
      | _ =>
        obtain rfl := Option.some.inj h
        exact hfound
  | _ =>
    unfold restValue at h
    split at h
    · exact hfound value h
    · cases h

theorem wellKeyed_restFields (flags : Document) {doc : Document} (hdoc : doc.WellKeyed) :
    (restFields relevance doc flags).WellKeyed := by
  cases flags with
  | nil => exact hdoc
  | cons field rest =>
    obtain ⟨key, flag⟩ := field
    rw [restFields]
    refine wellKeyed_restFields rest ?_
    split
    · exact hdoc.put key trivial
    · split
      · next value hvalue =>
        exact hdoc.put key (wellKeyed_restValue flag (fun value => hdoc.get) hvalue)
      · exact hdoc.erase key

end

/-- A projected document has distinct keys. -/
theorem wellKeyed_project {doc body projected : Document} (hdoc : doc.WellKeyed)
    (h : project relevance doc body = .ok projected) : projected.WellKeyed := by
  obtain ⟨inclusion, -, rfl⟩ := Outcome.map_eq_ok_iff.1 h
  split
  · obtain ⟨start, hstart, htake⟩ := exists_take_eq relevance doc (expand body)
    rw [htake]
    refine wellKeyed_takeFields _ hdoc ?_
    rcases hstart with rfl | ⟨id, hid, rfl⟩
    · exact Document.wellKeyed_nil
    · exact Document.wellKeyed_nil.put "_id" (hdoc.get hid)
  · exact wellKeyed_restFields _ hdoc

end DocQuery.Projection
