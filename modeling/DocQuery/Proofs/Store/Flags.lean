import DocQuery.Proofs.Path.Candidates
import DocQuery.Store.Projection

/-!
# What flags take and leave

`get?_takeFields` and `get?_restFields` say what each field of a result is.  From them it follows what is
found at a path of a value after flags have taken of it, or left it, and it depends only on how the path
stands to the paths of the flags (`Value.flagPaths`).  Behind a flag all is taken
(`takeValue_of_covered`), or nothing is left (`restValue_of_covered`); apart from all flags nothing is
taken (`takeValue_of_apart`), and all is left (`restValue_of_apart`).
-/

namespace DocQuery

/-! ### Trees of flags -/

mutual

/-- The paths of the flags in the body of a projection stage. -/
def Value.flagPaths : Value → List Path
  | .document fields => flagPathsOf fields
  | _ => [[]]

def flagPathsOf : List (String × Value) → List Path
  | [] => []
  | (key, value) :: rest => value.flagPaths.map (key :: ·) ++ flagPathsOf rest

end

theorem mem_flagPathsOf_iff {fields : Document} (h : Keyed.Distinct fields) {path : Path} :
    path ∈ flagPathsOf fields ↔
      ∃ key rest, (∃ value, fields.get? key = some value ∧ rest ∈ value.flagPaths) ∧
        path = key :: rest := by
  have hmem : path ∈ flagPathsOf fields ↔
      ∃ field ∈ fields, ∃ rest ∈ field.2.flagPaths, path = field.1 :: rest := by
    clear h
    induction fields with
    | nil => simp [flagPathsOf]
    | cons field rest ih =>
      obtain ⟨key, value⟩ := field
      rw [flagPathsOf, List.mem_append, ih, List.exists_mem_cons_iff, List.mem_map]
      simp only [eq_comm]
  rw [hmem]
  constructor
  · rintro ⟨⟨key, value⟩, hfield, rest, hrest, rfl⟩
    exact ⟨key, rest, ⟨value, Keyed.lookup_of_mem h hfield, hrest⟩, rfl⟩
  · rintro ⟨key, rest, ⟨value, hget, hrest⟩, rfl⟩
    exact ⟨_, Keyed.mem_of_lookup hget, rest, hrest, rfl⟩

namespace Projection

variable {relevance : Nat} {kind : Value → Prop}

/-- A value of a body: a flag of some kind, or a document of such values, in which there is something, no
key stands twice and none asks for the relevance. -/
inductive FlagTree (kind : Value → Prop) : Value → Prop
  | flag {value : Value} (h : ∀ fields, value ≠ .document fields) (hkind : kind value) :
    FlagTree kind value
  | document {fields : Document} (hne : fields ≠ []) (hdistinct : Keyed.Distinct fields)
    (hmeta : ∀ field ∈ fields, "$meta" ∉ Path.ofText field.1)
    (h : ∀ field ∈ fields, FlagTree kind field.2) : FlagTree kind (.document fields)

/-- A body of such values. -/
structure FlagBody (kind : Value → Prop) (body : Document) : Prop where
  distinct : Keyed.Distinct body
  no_meta : ∀ field ∈ body, "$meta" ∉ Path.ofText field.1
  trees : ∀ field ∈ body, FlagTree kind field.2

theorem flagTree_document_iff {fields : Document} :
    FlagTree kind (.document fields) ↔ fields ≠ [] ∧ FlagBody kind fields := by
  constructor
  · intro h
    cases h with
    | flag h => exact absurd rfl (h fields)
    | document hne hdistinct hmeta h => exact ⟨hne, hdistinct, hmeta, h⟩
  · exact fun ⟨hne, h⟩ => .document hne h.distinct h.no_meta h.trees

theorem FlagBody.get {body : Document} (h : FlagBody kind body) {key : String} {value : Value}
    (hget : body.get? key = some value) : FlagTree kind value :=
  h.trees _ (Keyed.mem_of_lookup hget)

theorem FlagBody.isMeta {fields : Document} (h : FlagBody kind fields) :
    isMeta (.document fields) = false := by
  rw [Projection.isMeta, ← Bool.not_eq_true]
  intro hcontains
  obtain ⟨field, hfield, hkey⟩ := List.mem_map.1 (Keyed.contains_iff_mem_keys.1 hcontains)
  have hnames := h.no_meta field hfield
  rw [hkey, Path.ofText_of_plain (by decide)] at hnames
  exact hnames (List.mem_singleton_self _)

theorem FlagTree.isMeta {value : Value} (h : FlagTree kind value) : isMeta value = false := by
  cases value with
  | document fields => exact (flagTree_document_iff.1 h).2.isMeta
  | _ => rfl

theorem nil_mem_flagPaths {value : Value} (h : ∀ fields, value ≠ .document fields) :
    [] ∈ value.flagPaths := by
  rw [Value.flagPaths]
  · exact List.mem_singleton_self _
  · exact h

theorem FlagBody.exists_mem_flagPathsOf {fields : Document} (hne : fields ≠ [])
    (hvalues : ∀ field ∈ fields, ∃ leaf, leaf ∈ field.2.flagPaths) :
    ∃ leaf, leaf ∈ flagPathsOf fields := by
  obtain ⟨⟨key, value⟩, rest, rfl⟩ := List.exists_cons_of_ne_nil hne
  obtain ⟨leaf, hleaf⟩ := hvalues _ List.mem_cons_self
  exact ⟨key :: leaf, List.mem_append_left _ (List.mem_map_of_mem hleaf)⟩

/-- There is a flag somewhere. -/
theorem FlagTree.exists_mem_flagPaths {value : Value} (h : FlagTree kind value) :
    ∃ leaf, leaf ∈ value.flagPaths := by
  induction h with
  | flag hflag _ => exact ⟨[], nil_mem_flagPaths hflag⟩
  | document hne _ _ _ ih => exact FlagBody.exists_mem_flagPathsOf hne ih

/-! ### Flags one key further down -/

section Fields

variable {fields : Document} {key : String} {rest path : Path} {flag : Value}

/-- A path behind a flag leads through a field. -/
theorem exists_field_of_covered (hfields : Keyed.Distinct fields)
    (h : ∃ leaf ∈ flagPathsOf fields, leaf <+: path) :
    ∃ key rest flag, path = key :: rest ∧ fields.get? key = some flag ∧
      ∃ leaf ∈ flag.flagPaths, leaf <+: rest := by
  obtain ⟨leaf, hleaf, hbegin⟩ := h
  obtain ⟨key, below, ⟨flag, hflag, hbelow⟩, rfl⟩ := (mem_flagPathsOf_iff hfields).1 hleaf
  obtain ⟨tail, rfl⟩ := hbegin
  exact ⟨key, below ++ tail, flag, rfl, hflag, below, hbelow, List.prefix_append _ _⟩

theorem apart_of_field (hfields : Keyed.Distinct fields)
    (h : ∀ leaf ∈ flagPathsOf fields, Path.Apart leaf (key :: rest)) (hflag : fields.get? key = some flag) :
    ∀ leaf ∈ flag.flagPaths, Path.Apart leaf rest := by
  intro leaf hleaf
  exact Path.apart_cons_iff.1 (h _ ((mem_flagPathsOf_iff hfields).2 ⟨key, leaf, ⟨flag, hflag, hleaf⟩, rfl⟩))

/-- What is apart from all flags of a document goes on behind a key. -/
theorem exists_cons_of_apart (hfields : FlagTree kind (.document fields))
    (h : ∀ leaf ∈ flagPathsOf fields, Path.Apart leaf path) : ∃ key rest, path = key :: rest := by
  obtain ⟨leaf, hleaf⟩ := hfields.exists_mem_flagPaths
  exact List.exists_cons_of_ne_nil (h leaf hleaf).symm.ne_nil

end Fields

/-! ### The fields of the result -/

/-- What a flag makes of a field, apart from the fields that are there already. -/
def taken (relevance : Nat) (found : Option Value) (flag : Value) : Option Value :=
  if isMeta flag then some (scoreValue relevance) else takeValue relevance found flag

/-- What a flag leaves of a field. -/
def left (relevance : Nat) (found : Option Value) (flag : Value) : Option Value :=
  if isMeta flag then some (scoreValue relevance) else restValue relevance found flag

theorem takeFields_cons (source done : Document) (name : String) (flag : Value) (rest : Document) :
    takeFields relevance source done ((name, flag) :: rest) =
      takeFields relevance source (((taken relevance (source.get? name) flag).map
        fun value => done.put name value).getD done) rest := by
  rw [takeFields, taken]
  split
  · rfl
  · cases takeValue relevance (source.get? name) flag <;> rfl

theorem restFields_cons (doc : Document) (name : String) (flag : Value) (rest : Document) :
    restFields relevance doc ((name, flag) :: rest) =
      restFields relevance (((left relevance (doc.get? name) flag).map
        fun value => doc.put name value).getD (doc.erase name)) rest := by
  rw [restFields, left]
  split
  · rfl
  · cases restValue relevance (doc.get? name) flag <;> rfl

theorem get?_takeFields {flags : Document} (hflags : Keyed.Distinct flags) (source done : Document)
    (key : String) : Document.get? (takeFields relevance source done flags) key =
      ((flags.get? key).bind (taken relevance (source.get? key))).or (done.get? key) := by
  induction flags generalizing done with
  | nil => rfl
  | cons field rest ih =>
    obtain ⟨name, flag⟩ := field
    obtain ⟨hname, hrest⟩ := List.nodup_cons.1 hflags
    rw [takeFields_cons, ih hrest]
    by_cases hkey : key = name
    · subst hkey
      have hnone : Document.get? rest key = none := Keyed.lookup_eq_none_iff.2 hname
      have hself : Document.get? ((key, flag) :: rest) key = some flag := List.lookup_cons_self
      simp only [hnone, hself, Option.bind_some, Option.bind_none, Option.none_or]
      cases taken relevance (source.get? key) flag with
      | none => rfl
      | some value => exact Path.get?_put_self done key value
    · have hbeq : (key == name) = false := by simpa using hkey
      have hother : Document.get? ((name, flag) :: rest) key = Document.get? rest key := by
        rw [Document.get?, List.lookup_cons, hbeq]
        rfl
      rw [hother]
      cases taken relevance (source.get? name) flag with
      | none => rfl
      | some value =>
        rw [Option.map_some, Option.getD_some, Path.get?_put_of_ne hkey]

theorem get?_restFields {flags : Document} (hflags : Keyed.Distinct flags) {doc : Document}
    (hdoc : Keyed.Distinct doc) (key : String) :
    Document.get? (restFields relevance doc flags) key =
      match flags.get? key with
      | none => doc.get? key
      | some flag => left relevance (doc.get? key) flag := by
  induction flags generalizing doc with
  | nil => rfl
  | cons field rest ih =>
    obtain ⟨name, flag⟩ := field
    obtain ⟨hname, hrest⟩ := List.nodup_cons.1 hflags
    have hdistinct : Keyed.Distinct (((left relevance (doc.get? name) flag).map
        fun value => doc.put name value).getD (doc.erase name)) := by
      cases left relevance (doc.get? name) flag with
      | none => exact hdoc.erase name
      | some value => exact hdoc.adjust name _
    rw [restFields_cons, ih hrest hdistinct]
    by_cases hkey : key = name
    · subst hkey
      have hnone : Document.get? rest key = none := Keyed.lookup_eq_none_iff.2 hname
      have hself : Document.get? ((key, flag) :: rest) key = some flag := List.lookup_cons_self
      simp only [hnone, hself]
      cases left relevance (doc.get? key) flag with
      | none => exact Keyed.lookup_erase_self hdoc key
      | some value => exact Path.get?_put_self doc key value
    · have hbeq : (key == name) = false := by simpa using hkey
      have hother : Document.get? ((name, flag) :: rest) key = Document.get? rest key := by
        rw [Document.get?, List.lookup_cons, hbeq]
        rfl
      have hsame : Document.get? (((left relevance (doc.get? name) flag).map
          fun value => doc.put name value).getD (doc.erase name)) key = doc.get? key := by
        cases left relevance (doc.get? name) flag with
        | none => exact Path.get?_erase_of_ne hkey doc
        | some value => exact Path.get?_put_of_ne hkey doc value
      rw [hother, hsame]

/-! ### Taking `_id` -/

/-- Fields are taken onto `_id`, if that is there and is not left out. -/
theorem take_eq (relevance : Nat) (source body : Document) :
    take relevance source body = takeFields relevance source
      (((source.get? "_id").filter fun _ => (body.get? "_id").all Value.truthy).toList.map
        fun id => ("_id", id))
      (body.filter fun field => field.1 != "_id") := by
  rw [take]
  cases source.get? "_id" with
  | none => rfl
  | some id =>
    cases body.get? "_id" with
    | none => rfl
    | some flag => cases h : flag.truthy <;> simp [h, Option.filter]

theorem exists_take_eq (relevance : Nat) (source body : Document) :
    ∃ start : Document, (start = [] ∨ ∃ id, source.get? "_id" = some id ∧ start = [("_id", id)]) ∧
      take relevance source body =
        takeFields relevance source start (body.filter fun field => field.1 != "_id") := by
  refine ⟨_, ?_, take_eq relevance source body⟩
  cases hid : (source.get? "_id").filter fun _ => (body.get? "_id").all Value.truthy with
  | none => exact .inl rfl
  | some id => exact .inr ⟨id, Option.eq_some_of_filter_eq_some hid, rfl⟩

/-- A field of the result is what its flag takes. -/
theorem get?_take {body : Document} (hbody : Keyed.Distinct body) (source : Document) {key : String}
    (hkey : key ≠ "_id") : (take relevance source body).get? key =
      (body.get? key).bind (taken relevance (source.get? key)) := by
  obtain ⟨start, hstart, htake⟩ := exists_take_eq relevance source body
  have hflags : Keyed.Distinct (body.filter fun field => field.1 != "_id") :=
    hbody.sublist (List.filter_sublist.map _)
  have hget : Document.get? (body.filter fun field => field.1 != "_id") key = body.get? key :=
    Keyed.lookup_filter (p := fun name => name != "_id") (by simpa using hkey) body
  have hnone : start.get? key = none := by
    have hbeq : (key == "_id") = false := by simpa using hkey
    rcases hstart with rfl | ⟨id, -, rfl⟩
    · rfl
    · simp [Document.get?, List.lookup_cons, hbeq]
  rw [htake, get?_takeFields hflags, hget, hnone, Option.or_none]

/-- `_id` is taken as it is, or not at all. -/
theorem get?_id_take {body : Document} (hbody : Keyed.Distinct body) (source : Document) :
    (take relevance source body).get? "_id" =
      if (body.get? "_id").all Value.truthy then source.get? "_id" else none := by
  have hflags : Keyed.Distinct (body.filter fun field => field.1 != "_id") :=
    hbody.sublist (List.filter_sublist.map _)
  have hnone : Document.get? (body.filter fun field => field.1 != "_id") "_id" = none :=
    Keyed.lookup_eq_none_iff.2 (by simp [Keyed.keys])
  rw [take_eq, get?_takeFields hflags, hnone, Option.bind_none, Option.none_or]
  cases source.get? "_id" with
  | none => rw [ite_self]; rfl
  | some id => cases (body.get? "_id").all Value.truthy <;> rfl

/-! ### What is found behind flags, and apart from them -/

section Found

variable {source doc fields : Document} {key : String} {rest path : Path} {flag value : Value}
  {found : Option Value}

theorem FlagTree.taken_eq (h : FlagTree kind flag) (found : Option Value) :
    taken relevance found flag = takeValue relevance found flag := by
  rw [taken, h.isMeta, if_neg (by simp)]

theorem FlagTree.left_eq (h : FlagTree kind flag) (found : Option Value) :
    left relevance found flag = restValue relevance found flag := by
  rw [left, h.isMeta, if_neg (by simp)]

theorem FlagBody.get?_takeFields (h : FlagBody kind fields) (source : Document) (key : String) :
    Document.get? (takeFields relevance source [] fields) key =
      (fields.get? key).bind (takeValue relevance (source.get? key)) := by
  have hnone : Document.get? [] key = none := rfl
  rw [Projection.get?_takeFields h.distinct, hnone, Option.or_none]
  exact Option.bind_congr fun flag hflag => (h.get hflag).taken_eq _

theorem FlagBody.get?_restFields (h : FlagBody kind fields) (hdoc : doc.WellKeyed) (key : String) :
    Document.get? (restFields relevance doc fields) key =
      match fields.get? key with
      | none => doc.get? key
      | some flag => restValue relevance (doc.get? key) flag := by
  rw [Projection.get?_restFields h.distinct (Document.wellKeyed_iff.1 hdoc).1]
  cases hflag : fields.get? key with
  | none => rfl
  | some flag => exact (h.get hflag).left_eq _

/-- Behind a key, what flags take of a value is what they take of the documents in it. -/
theorem elim_takeValue_document :
    (takeValue relevance found (.document fields)).elim [] (Path.below · (key :: rest)) =
      found.elim [] (Path.through fun sub =>
        Path.candidates (takeFields relevance sub [] fields) (key :: rest)) := by
  unfold takeValue
  cases found with
  | none => rfl
  | some found =>
    cases found with
    | document sub => rfl
    | array items =>
      show List.flatMap _ (List.filterMap _ items) = List.flatMap _ items
      rw [List.filterMap_eq_flatMap_toList, List.flatMap_assoc]
      refine List.flatMap_congr fun item _ => ?_
      cases item with
      | document sub => exact List.flatMap_singleton _ _
      | _ => rfl
    | _ => rfl

/-- Behind a key, what flags leave of a value is what they leave of the documents in it. -/
theorem elim_restValue_document :
    (restValue relevance found (.document fields)).elim [] (Path.below · (key :: rest)) =
      found.elim [] (Path.through fun sub =>
        Path.candidates (restFields relevance sub fields) (key :: rest)) := by
  unfold restValue
  cases found with
  | none => rfl
  | some found =>
    cases found with
    | document sub => rfl
    | array items =>
      show List.flatMap _ (List.map _ items) = List.flatMap _ items
      rw [List.flatMap_map]
      refine List.flatMap_congr fun item _ => ?_
      cases item <;> rfl
    | _ => rfl

/-- Flags that take fields take all that lies behind them. -/
theorem takeValue_of_covered (h : FlagTree (fun value => value.truthy = true) flag) :
    ∀ (path : Path) (found : Option Value), (∃ leaf ∈ flag.flagPaths, leaf <+: path) →
      (takeValue relevance found flag).elim [] (Path.below · path) = found.elim [] (Path.below · path) := by
  induction h with
  | @flag value hflag htruthy =>
    intro path found _
    rw [takeValue, if_pos htruthy]
    exact hflag
  | @document fields hne hdistinct hmeta hfields ih =>
    intro path found hcovered
    obtain ⟨key, rest, flag, rfl, hflag, hrest⟩ := exists_field_of_covered hdistinct hcovered
    have hbody : FlagBody _ fields := ⟨hdistinct, hmeta, hfields⟩
    have hsub : ∀ sub : Document, Path.candidates (takeFields relevance sub [] fields) (key :: rest) =
        Path.candidates sub (key :: rest) := by
      intro sub
      rw [Path.candidates_eq_elim, Path.candidates_eq_elim, hbody.get?_takeFields, hflag]
      exact ih _ (Keyed.mem_of_lookup hflag) rest _ hrest
    rw [elim_takeValue_document, funext hsub]
    exact congrArg (found.elim []) (funext fun value => (Path.below_cons value key rest).symm)

/-- Flags take nothing that is apart from them. -/
theorem takeValue_of_apart (h : FlagTree kind flag) :
    ∀ (path : Path) (found : Option Value), (∀ leaf ∈ flag.flagPaths, Path.Apart leaf path) →
      (takeValue relevance found flag).elim [] (Path.below · path) = [] := by
  induction h with
  | flag hflag _ =>
    intro path found hapart
    exact absurd (hapart [] (nil_mem_flagPaths hflag)) (Path.not_apart_nil path)
  | @document fields hne hdistinct hmeta hfields ih =>
    intro path found hapart
    have hbody : FlagBody _ fields := ⟨hdistinct, hmeta, hfields⟩
    obtain ⟨key, rest, rfl⟩ := exists_cons_of_apart (flagTree_document_iff.2 ⟨hne, hbody⟩) hapart
    have hsub : ∀ sub : Document,
        Path.candidates (takeFields relevance sub [] fields) (key :: rest) = [] := by
      intro sub
      rw [Path.candidates_eq_elim, hbody.get?_takeFields]
      cases hflag : fields.get? key with
      | none => rfl
      | some flag =>
        exact ih _ (Keyed.mem_of_lookup hflag) rest _ (apart_of_field hdistinct hapart hflag)
    rw [elim_takeValue_document, funext hsub]
    cases found with
    | none => rfl
    | some value => exact Path.through_nil value

/-- Flags that leave fields out leave nothing that lies behind them. -/
theorem restValue_of_covered (h : FlagTree (fun value => value.truthy = false) flag) :
    ∀ (path : Path) (found : Option Value), (∀ value, found = some value → value.WellKeyed) →
      (∃ leaf ∈ flag.flagPaths, leaf <+: path) →
        (restValue relevance found flag).elim [] (Path.below · path) = [] := by
  induction h with
  | @flag value hflag hfalsy =>
    intro path found _ _
    rw [restValue, if_neg (by simp [hfalsy])]
    · rfl
    · exact hflag
  | @document fields hne hdistinct hmeta hfields ih =>
    intro path found hfound hcovered
    obtain ⟨key, rest, flag, rfl, hflag, hrest⟩ := exists_field_of_covered hdistinct hcovered
    have hbody : FlagBody _ fields := ⟨hdistinct, hmeta, hfields⟩
    have hsub : ∀ sub : Document, sub.WellKeyed →
        Path.candidates (restFields relevance sub fields) (key :: rest) = [] := by
      intro sub hsub
      rw [Path.candidates_eq_elim, hbody.get?_restFields hsub, hflag]
      exact ih _ (Keyed.mem_of_lookup hflag) rest _ (fun _ => hsub.get) hrest
    rw [elim_restValue_document]
    cases found with
    | none => rfl
    | some value => exact (Path.through_congr (hfound value rfl) hsub).trans (Path.through_nil value)

/-- Flags leave all that is apart from them. -/
theorem restValue_of_apart (h : FlagTree kind flag) :
    ∀ (path : Path) (found : Option Value), (∀ value, found = some value → value.WellKeyed) →
      (∀ leaf ∈ flag.flagPaths, Path.Apart leaf path) →
        (restValue relevance found flag).elim [] (Path.below · path) = found.elim [] (Path.below · path) := by
  induction h with
  | flag hflag _ =>
    intro path found _ hapart
    exact absurd (hapart [] (nil_mem_flagPaths hflag)) (Path.not_apart_nil path)
  | @document fields hne hdistinct hmeta hfields ih =>
    intro path found hfound hapart
    have hbody : FlagBody _ fields := ⟨hdistinct, hmeta, hfields⟩
    obtain ⟨key, rest, rfl⟩ := exists_cons_of_apart (flagTree_document_iff.2 ⟨hne, hbody⟩) hapart
    have hsub : ∀ sub : Document, sub.WellKeyed →
        Path.candidates (restFields relevance sub fields) (key :: rest) =
          Path.candidates sub (key :: rest) := by
      intro sub hsub
      rw [Path.candidates_eq_elim, Path.candidates_eq_elim, hbody.get?_restFields hsub]
      cases hflag : fields.get? key with
      | none => rfl
      | some flag =>
        exact ih _ (Keyed.mem_of_lookup hflag) rest _ (fun _ => hsub.get)
          (apart_of_field hdistinct hapart hflag)
    rw [elim_restValue_document]
    cases found with
    | none => rfl
    | some value =>
      exact (Path.through_congr (hfound value rfl) hsub).trans (Path.below_cons value key rest).symm

/-! ### Whole documents -/

theorem ne_nil_of_covered (h : ∃ leaf ∈ flagPathsOf fields, leaf <+: path) : fields ≠ [] := by
  rintro rfl
  obtain ⟨leaf, hleaf, -⟩ := h
  cases hleaf

theorem FlagBody.candidates_takeFields_of_covered
    (h : FlagBody (fun value => value.truthy = true) fields)
    (hcovered : ∃ leaf ∈ flagPathsOf fields, leaf <+: path) (source : Document) :
    Path.candidates (takeFields relevance source [] fields) path = Path.candidates source path := by
  have htree := flagTree_document_iff.2 ⟨ne_nil_of_covered hcovered, h⟩
  obtain ⟨key, rest, -, rfl, -⟩ := exists_field_of_covered h.distinct hcovered
  exact takeValue_of_covered htree (key :: rest) (some (.document source)) hcovered

theorem FlagBody.candidates_takeFields_of_apart (h : FlagBody kind fields)
    (hapart : ∀ leaf ∈ flagPathsOf fields, Path.Apart leaf path) (source : Document) :
    Path.candidates (takeFields relevance source [] fields) path = [] := by
  cases path with
  | nil => rfl
  | cons key rest =>
    by_cases hne : fields = []
    · subst hne
      exact Path.candidates_cons_of_none rfl
    · have htree := flagTree_document_iff.2 ⟨hne, h⟩
      exact takeValue_of_apart htree (key :: rest) (some (.document source)) hapart

theorem FlagBody.candidates_restFields_of_covered
    (h : FlagBody (fun value => value.truthy = false) fields)
    (hcovered : ∃ leaf ∈ flagPathsOf fields, leaf <+: path) (hdoc : doc.WellKeyed) :
    Path.candidates (restFields relevance doc fields) path = [] := by
  have htree := flagTree_document_iff.2 ⟨ne_nil_of_covered hcovered, h⟩
  have hfound : ∀ value, some (Value.document doc) = some value → value.WellKeyed := by
    rintro _ ⟨⟩
    exact hdoc
  obtain ⟨key, rest, -, rfl, -⟩ := exists_field_of_covered h.distinct hcovered
  exact restValue_of_covered htree (key :: rest) (some (.document doc)) hfound hcovered

theorem FlagBody.candidates_restFields_of_apart (h : FlagBody kind fields)
    (hapart : ∀ leaf ∈ flagPathsOf fields, Path.Apart leaf path) (hdoc : doc.WellKeyed) :
    Path.candidates (restFields relevance doc fields) path = Path.candidates doc path := by
  have hfound : ∀ value, some (Value.document doc) = some value → value.WellKeyed := by
    rintro _ ⟨⟩
    exact hdoc
  cases path with
  | nil => rfl
  | cons key rest =>
    by_cases hne : fields = []
    · subst hne
      rfl
    · have htree := flagTree_document_iff.2 ⟨hne, h⟩
      exact restValue_of_apart htree (key :: rest) (some (.document doc)) hfound hapart

end Found

end Projection

end DocQuery
