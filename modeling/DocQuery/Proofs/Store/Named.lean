import DocQuery.Proofs.Store.Projection

/-!
# The fields that a body names

The fields that a body names are the paths of its flags, once its dotted keys are written as documents
and `_id` is left aside (`Projection.namedPaths`).  If no document in the body is empty and it does not
ask for the relevance, its flags still stand in such documents after that (`FlagBody.expand`), and all of
them are of one kind, or the body is refused (`FlagBody.named`).  So a stage keeps just what the paths
say, and there is nothing for it to do a second time: what was taken can be taken once more
(`FlagTree.takeValue_again`), and what was left out is not there any more (`FlagTree.restValue_again`).
-/

namespace DocQuery.Projection

variable {relevance again : Nat} {kind : Value → Prop} {doc body fields source : Document}

/-! ### Dotted keys -/

theorem flagBody_nil (kind : Value → Prop) : FlagBody kind [] := ⟨List.nodup_nil, by simp, by simp⟩

/-- What is computed from a tree of flags, or from nothing, is one. -/
def KeepsTrees (kind : Value → Prop) (f : Option Value → Value) : Prop :=
  ∀ found, (∀ value, found = some value → FlagTree kind value) → FlagTree kind (f found)

theorem FlagBody.adjust (h : FlagBody kind doc) {key : String} (hkey : "$meta" ∉ Path.ofText key)
    {f : Option Value → Value} (hf : KeepsTrees kind f) : FlagBody kind (Keyed.adjust key f doc) where
  distinct := h.distinct.adjust key f
  no_meta field hfield := by
    rcases Keyed.mem_adjust hfield with hfield | rfl
    · exact h.no_meta field hfield
    · exact hkey
  trees field hfield := by
    rcases Keyed.mem_adjust hfield with hfield | rfl
    · exact h.trees field hfield
    · exact hf _ fun _ => h.get

theorem FlagBody.adjustAt (h : FlagBody kind doc) {path : Path} (hpath : path ≠ [])
    (hmeta : ∀ key ∈ path, "$meta" ∉ Path.ofText key) {f : Option Value → Value}
    (hf : KeepsTrees kind f) :
    adjustAt f doc path ≠ [] ∧ FlagBody kind (adjustAt f doc path) := by
  induction path generalizing doc with
  | nil => exact absurd rfl hpath
  | cons key path ih =>
    rw [List.forall_mem_cons] at hmeta
    have hadjust : ∀ g : Option Value → Value, KeepsTrees kind g →
        Keyed.adjust key g doc ≠ [] ∧ FlagBody kind (Keyed.adjust key g doc) := fun g hg =>
      ⟨List.ne_nil_of_mem (Keyed.self_mem_adjust key g doc), h.adjust hmeta.1 hg⟩
    cases path with
    | nil => exact hadjust f hf
    | cons next path =>
      have hsub : ∀ sub : Document, FlagBody kind sub →
          FlagTree kind (.document (Projection.adjustAt f sub (next :: path))) := fun sub hsub =>
        flagTree_document_iff.2 (ih hsub (by simp) hmeta.2)
      rw [Projection.adjustAt]
      · refine hadjust _ fun found hfound => ?_
        split
        · next sub => exact hsub sub (flagTree_document_iff.1 (hfound _ rfl)).2
        · exact hsub [] (flagBody_nil kind)
      · simp

/-- One more field at the path that its key writes. -/
theorem FlagBody.adjustAt_key (h : FlagBody kind doc) {key : String} (hkey : "$meta" ∉ Path.ofText key)
    {f : Option Value → Value} (hf : KeepsTrees kind f) :
    Projection.adjustAt f doc (Path.ofText key) ≠ [] ∧
      FlagBody kind (Projection.adjustAt f doc (Path.ofText key)) := by
  refine h.adjustAt (Path.ofText_ne_nil key) (fun part hpart => ?_) hf
  rw [Path.ofText_of_plain (Path.plain_of_mem_ofText hpart), List.mem_singleton]
  rintro rfl
  exact hkey hpart

theorem FlagBody.mergeFields (h : FlagBody kind doc) (hne : doc ≠ [])
    (hmeta : ∀ field ∈ fields, "$meta" ∉ Path.ofText field.1)
    (hvalues : ∀ field ∈ fields, KeepsTrees kind fun found => mergeValue found field.2) :
    mergeFields doc fields ≠ [] ∧ FlagBody kind (mergeFields doc fields) := by
  induction fields generalizing doc with
  | nil => exact ⟨hne, h⟩
  | cons field rest ih =>
    rw [List.forall_mem_cons] at hmeta hvalues
    obtain ⟨hfirst, hbody⟩ := h.adjustAt_key hmeta.1 hvalues.1
    exact ih hbody hfirst hmeta.2 hvalues.2

theorem FlagTree.mergeValue {value : Value} (h : FlagTree kind value) :
    KeepsTrees kind fun found => mergeValue found value := by
  induction h with
  | @flag value hflag hkind =>
    intro found _
    dsimp only
    rw [Projection.mergeValue]
    · exact .flag hflag hkind
    · exact hflag
  | @document fields hne hdistinct hmeta hfields ih =>
    intro found hfound
    rcases found with _ | existing
    · exact .document hne hdistinct hmeta hfields
    · cases existing with
      | document existing =>
        obtain ⟨hne, hbody⟩ := flagTree_document_iff.1 (hfound _ rfl)
        exact flagTree_document_iff.2 (hbody.mergeFields hne hmeta ih)
      | _ => exact .document hne hdistinct hmeta hfields

theorem FlagBody.expandFields (h : FlagBody kind doc)
    (hmeta : ∀ field ∈ fields, "$meta" ∉ Path.ofText field.1)
    (hvalues : ∀ field ∈ fields, FlagTree kind (expandValue field.2)) :
    (doc ≠ [] ∨ fields ≠ [] → expandFields doc fields ≠ []) ∧
      FlagBody kind (expandFields doc fields) := by
  induction fields generalizing doc with
  | nil => exact ⟨fun hne => hne.resolve_right fun h => h rfl, h⟩
  | cons field rest ih =>
    rw [List.forall_mem_cons] at hmeta hvalues
    obtain ⟨hfirst, hbody⟩ := h.adjustAt_key hmeta.1 hvalues.1.mergeValue
    obtain ⟨hne, hexpanded⟩ := ih hbody hmeta.2 hvalues.2
    exact ⟨fun _ => hne (.inl hfirst), hexpanded⟩

theorem FlagTree.expandValue {value : Value} (h : FlagTree kind value) :
    FlagTree kind (expandValue value) := by
  induction h with
  | @flag value hflag hkind =>
    rw [Projection.expandValue]
    · exact .flag hflag hkind
    · exact hflag
  | @document fields hne hdistinct hmeta hfields ih =>
    have hbody : FlagBody kind fields := ⟨hdistinct, hmeta, hfields⟩
    obtain ⟨hexpanded, h⟩ := (flagBody_nil kind).expandFields hmeta ih
    rw [Projection.expandValue, hbody.isMeta, if_neg (by simp)]
    exact flagTree_document_iff.2 ⟨hexpanded (.inr hne), h⟩

/-- With its dotted keys written as documents, a body of flags is still one. -/
theorem FlagBody.expand (h : FlagBody kind body) : FlagBody kind (expand body) :=
  ((flagBody_nil kind).expandFields h.no_meta fun field hfield => (h.trees field hfield).expandValue).2

/-! ### Kinds of flags -/

/-- No flag is of the other kind: where fields are taken none leaves one out, and else none takes one. -/
def Flags.Only (inclusion : Bool) (flags : Flags) : Prop :=
  cond inclusion flags.leavesOut flags.takes = false

section Only

variable {inclusion : Bool} {value : Value}

theorem Flags.Only.of_or {a b : Flags} (h : (a.or b).Only inclusion) :
    a.Only inclusion ∧ b.Only inclusion := by
  cases inclusion <;> simpa [Flags.Only, Flags.or] using h

theorem Flags.Only.truthy_eq (h : Flags.Only inclusion ⟨value.truthy, !value.truthy⟩) :
    value.truthy = inclusion := by
  cases inclusion <;> simpa [Flags.Only] using h

/-- A body with flags of both kinds is refused. -/
theorem only_of_isInclusion (h : isInclusion body = .ok inclusion) :
    (flagsOfFields true body).Only inclusion := by
  rw [isInclusion] at h
  dsimp only at h
  split at h
  · cases h
  · next hmixed =>
    have hinclusion := Except.ok.inj h
    rw [Flags.Only]
    cases inclusion <;> grind

/-- What holds of the flags of all fields holds of those of each field, unless it does not count. -/
theorem Flags.Only.of_flagsOfFields {top : Bool} (h : (flagsOfFields top fields).Only inclusion) :
    ∀ field ∈ fields, (top = true → field.1 ≠ "_id") → (flagsOf field.2).Only inclusion := by
  induction fields with
  | nil => simp
  | cons field rest ih =>
    rw [flagsOfFields] at h
    rw [List.forall_mem_cons]
    split at h
    · next hid =>
      rw [Bool.and_eq_true, beq_iff_eq] at hid
      exact ⟨fun hne => absurd hid.2 (hne hid.1), ih h⟩
    · exact ⟨fun _ => h.of_or.1, ih h.of_or.2⟩

theorem FlagTree.of_only (h : FlagTree kind value) :
    (flagsOf value).Only inclusion → FlagTree (fun value => value.truthy = inclusion) value := by
  induction h with
  | @flag value hvalue _ =>
    intro honly
    rw [flagsOf] at honly
    · exact .flag hvalue honly.truthy_eq
    · exact hvalue
  | @document fields hne hdistinct hmeta hfields ih =>
    intro honly
    have hbody : FlagBody kind fields := ⟨hdistinct, hmeta, hfields⟩
    rw [flagsOf, hbody.isMeta, if_neg (by simp)] at honly
    exact .document hne hdistinct hmeta fun field hfield =>
      ih field hfield (honly.of_flagsOfFields field hfield (by simp))

end Only

theorem FlagBody.filter (h : FlagBody kind body) (p : String × Value → Bool) :
    FlagBody kind (body.filter p) where
  distinct := h.distinct.sublist (List.filter_sublist.map _)
  no_meta field hfield := h.no_meta field (List.mem_filter.1 hfield).1
  trees field hfield := h.trees field (List.mem_filter.1 hfield).1

/-- The fields of a body apart from `_id`, with dotted keys written as documents. -/
def named (body : Document) : Document := (expand body).filter fun field => field.1 != "_id"

/-- The paths of the fields that a body names apart from `_id`. -/
def namedPaths (body : Document) : List Path := flagPathsOf (named body)

/-- Of a body that is accepted, all flags but that of `_id` are of one kind. -/
theorem FlagBody.named {inclusion : Bool} (h : FlagBody kind body)
    (hkind : isInclusion (Projection.expand body) = .ok inclusion) :
    FlagBody (fun value => value.truthy = inclusion) (named body) := by
  have honly := only_of_isInclusion hkind
  have hnamed : FlagBody kind (Projection.named body) := h.expand.filter _
  refine ⟨hnamed.distinct, hnamed.no_meta, fun field hfield => ?_⟩
  obtain ⟨hmem, hid⟩ := List.mem_filter.1 hfield
  refine (h.expand.trees field hmem).of_only (honly.of_flagsOfFields field hmem fun _ => ?_)
  simpa using hid

theorem get?_named (body : Document) {key : String} (hkey : key ≠ "_id") :
    (named body).get? key = (expand body).get? key :=
  Keyed.lookup_filter (p := fun name => name != "_id") (by simpa using hkey) _

/-! ### A second time -/

theorem takeFields_congr {flags other done : Document}
    (h : ∀ field ∈ flags,
      taken relevance (source.get? field.1) field.2 = taken again (other.get? field.1) field.2) :
    takeFields relevance source done flags = takeFields again other done flags := by
  induction flags generalizing done with
  | nil => rfl
  | cons field rest ih =>
    rw [List.forall_mem_cons] at h
    rw [takeFields_cons, takeFields_cons, h.1, ih h.2]

theorem takeValue_array (relevance : Nat) (items : List Value) (fields : Document) :
    takeValue relevance (some (.array items)) (.document fields) =
      some (.array (items.filterMap fun
        | .document sub => some (.document (takeFields relevance sub [] fields))
        | _ => none)) := rfl

theorem restValue_array (relevance : Nat) (items : List Value) (fields : Document) :
    restValue relevance (some (.array items)) (.document fields) =
      some (.array (items.map fun
        | .document sub => .document (restFields relevance sub fields)
        | value => value)) := rfl

/-- Flags take all of what they have taken, if that is so for each of them. -/
theorem FlagBody.takeFields_again_of (h : FlagBody kind fields) {done : Document}
    (hdone : ∀ field ∈ fields, done.get? field.1 = none)
    (hvalues : ∀ field ∈ fields, ∀ found, takeValue again (takeValue relevance found field.2) field.2 =
      takeValue relevance found field.2) (source : Document) :
    takeFields again (takeFields relevance source done fields) done fields =
      takeFields relevance source done fields := by
  refine takeFields_congr fun field hfield => ?_
  have hget : fields.get? field.1 = some field.2 := Keyed.lookup_of_mem h.distinct hfield
  have htree := h.trees field hfield
  rw [Projection.get?_takeFields h.distinct, hget, hdone field hfield, Option.or_none, Option.bind_some,
    htree.taken_eq, htree.taken_eq, hvalues field hfield]

/-- Flags take all of what they have taken of a value. -/
theorem FlagTree.takeValue_again {flag : Value} (h : FlagTree kind flag) : ∀ found,
    takeValue again (takeValue relevance found flag) flag = takeValue relevance found flag := by
  induction h with
  | @flag value hvalue _ =>
    intro found
    have htake : ∀ (relevance : Nat) (found : Option Value),
        takeValue relevance found value = if value.truthy then found else none := fun _ _ => by
      rw [takeValue]
      exact hvalue
    cases htruthy : value.truthy <;> simp [htake, htruthy]
  | @document fields hne hdistinct hmeta hfields ih =>
    intro found
    have hbody : FlagBody kind fields := ⟨hdistinct, hmeta, hfields⟩
    have hsub : ∀ sub : Document, takeFields again (takeFields relevance sub [] fields) [] fields =
        takeFields relevance sub [] fields :=
      hbody.takeFields_again_of (fun _ _ => rfl) ih
    cases found with
    | none => rfl
    | some found =>
      cases found with
      | document sub => exact congrArg (fun sub => some (Value.document sub)) (hsub sub)
      | array items =>
        rw [takeValue_array, takeValue_array, List.filterMap_filterMap]
        refine congrArg (fun items => some (Value.array items)) (List.filterMap_congr fun item _ => ?_)
        cases item with
        | document sub => exact congrArg (fun sub => some (Value.document sub)) (hsub sub)
        | _ => rfl
      | _ => rfl

/-- Flags that leave each of their fields as it is change nothing. -/
theorem restFields_of_left {flags : Document}
    (h : ∀ field ∈ flags, left relevance (doc.get? field.1) field.2 = doc.get? field.1) :
    restFields relevance doc flags = doc := by
  induction flags with
  | nil => rfl
  | cons field rest ih =>
    obtain ⟨key, flag⟩ := field
    rw [List.forall_mem_cons] at h
    rw [restFields_cons, h.1]
    cases hget : doc.get? key with
    | none =>
      have herase : doc.erase key = doc := Keyed.erase_of_notMem (Keyed.lookup_eq_none_iff.1 hget)
      rw [Option.map_none, Option.getD_none, herase, ih h.2]
    | some value =>
      have hput : doc.put key value = doc := Keyed.put_of_lookup hget
      rw [Option.map_some, Option.getD_some, hput, ih h.2]

theorem FlagBody.restFields_again_of (h : FlagBody kind fields) (hdoc : doc.WellKeyed)
    (hvalues : ∀ field ∈ fields, ∀ found, (∀ value, found = some value → value.WellKeyed) →
      restValue again (restValue relevance found field.2) field.2 = restValue relevance found field.2) :
    restFields again (restFields relevance doc fields) fields = restFields relevance doc fields := by
  refine restFields_of_left fun field hfield => ?_
  have hget : fields.get? field.1 = some field.2 := Keyed.lookup_of_mem h.distinct hfield
  rw [h.get?_restFields hdoc, hget, (h.trees field hfield).left_eq]
  exact hvalues field hfield _ fun _ => hdoc.get

/-- Flags leave all of what they have left of a value. -/
theorem FlagTree.restValue_again {flag : Value} (h : FlagTree kind flag) :
    ∀ found, (∀ value, found = some value → value.WellKeyed) →
      restValue again (restValue relevance found flag) flag = restValue relevance found flag := by
  induction h with
  | @flag value hvalue _ =>
    intro found _
    have hrest : ∀ (relevance : Nat) (found : Option Value),
        restValue relevance found value = if value.truthy then found else none := fun _ _ => by
      rw [restValue]
      exact hvalue
    cases htruthy : value.truthy <;> simp [hrest, htruthy]
  | @document fields hne hdistinct hmeta hfields ih =>
    intro found hfound
    have hbody : FlagBody kind fields := ⟨hdistinct, hmeta, hfields⟩
    have hsub : ∀ sub : Document, sub.WellKeyed →
        restFields again (restFields relevance sub fields) fields = restFields relevance sub fields :=
      fun sub hsub => hbody.restFields_again_of hsub ih
    cases found with
    | none => rfl
    | some found =>
      cases found with
      | document sub => exact congrArg (fun sub => some (Value.document sub)) (hsub sub (hfound _ rfl))
      | array items =>
        rw [restValue_array, restValue_array, List.map_map]
        refine congrArg (fun items => some (Value.array items)) (List.map_congr_left fun item hitem => ?_)
        cases item with
        | document sub =>
          have hkeyed := Value.wellKeyed_array_iff.1 (hfound _ rfl) _ hitem
          exact congrArg Value.document (hsub sub hkeyed)
        | _ => rfl
      | _ => rfl

/-- A body takes all of what it has taken, and `_id` as well. -/
theorem take_again (h : FlagBody kind body) (source : Document) :
    take again (take relevance source body) body = take relevance source body := by
  have hid : (take relevance source body).get? "_id" =
      (source.get? "_id").filter fun _ => (body.get? "_id").all Value.truthy := by
    rw [get?_id_take h.distinct]
    cases (body.get? "_id").all Value.truthy <;> cases source.get? "_id" <;> rfl
  rw [take_eq again, hid, Option.filter_filter]
  simp only [Bool.and_self]
  rw [take_eq relevance source body]
  refine (h.filter _).takeFields_again_of (fun field hfield => ?_) (fun field hfield found => ?_) source
  · have hkey : (field.1 == "_id") = false := by simpa using (List.mem_filter.1 hfield).2
    cases (source.get? "_id").filter fun _ => (body.get? "_id").all Value.truthy with
    | none => rfl
    | some id => simp [Document.get?, List.lookup_cons, hkey]
  · exact (h.trees field (List.mem_filter.1 hfield).1).takeValue_again found

/-! ### The whole stage -/

section Stage

variable {path : Path} {inclusion : Bool}

/-- Apart from `_id`, what a body takes is what the fields take that it names. -/
theorem candidates_take_named (h : FlagBody kind body) (hid : path.head? ≠ some "_id")
    (source : Document) : Path.candidates (take relevance source (Projection.expand body)) path =
      Path.candidates (takeFields relevance source [] (named body)) path := by
  have hnamed : FlagBody kind (Projection.named body) := h.expand.filter _
  cases path with
  | nil => rfl
  | cons key rest =>
    have hkey : key ≠ "_id" := fun e => hid (by simp [e])
    have hnone : Document.get? [] key = none := rfl
    refine Path.candidates_congr rest ?_
    rw [get?_take h.expand.distinct source hkey, Projection.get?_takeFields hnamed.distinct,
      get?_named body hkey, hnone, Option.or_none]

/-- Apart from `_id`, what a body leaves is what the fields leave that it names. -/
theorem candidates_restFields_named (h : FlagBody kind body) (hid : path.head? ≠ some "_id")
    (hdoc : doc.WellKeyed) :
    Path.candidates (restFields relevance doc (Projection.expand body)) path =
      Path.candidates (restFields relevance doc (named body)) path := by
  have hnamed : FlagBody kind (Projection.named body) := h.expand.filter _
  have hdistinct := (Document.wellKeyed_iff.1 hdoc).1
  cases path with
  | nil => rfl
  | cons key rest =>
    have hkey : key ≠ "_id" := fun e => hid (by simp [e])
    refine Path.candidates_congr rest ?_
    rw [Projection.get?_restFields h.expand.distinct hdistinct,
      Projection.get?_restFields hnamed.distinct hdistinct, get?_named body hkey]

/-- **A stage keeps just what its body names.**  For a body that asks for no relevance and in which no
document is empty: a stage that takes fields keeps all that lies behind the paths that its body names, and
nothing that is apart from them; one that leaves fields out does the reverse.  Only of `_id` this does not
hold.  The same stage once more changes nothing. -/
theorem project_named (hbody : FlagBody (fun _ => True) body)
    (hkind : isInclusion (Projection.expand body) = .ok inclusion) (hdoc : doc.WellKeyed)
    (relevance : Nat) :
    ∃ projected, project relevance doc body = .ok projected ∧
      (∀ path : Path, path.head? ≠ some "_id" →
        ((∃ leaf ∈ namedPaths body, leaf <+: path) →
          Path.candidates projected path = if inclusion then Path.candidates doc path else []) ∧
        ((∀ leaf ∈ namedPaths body, Path.Apart leaf path) →
          Path.candidates projected path = if inclusion then [] else Path.candidates doc path)) ∧
      ∀ again, project again projected body = .ok projected := by
  have hnamed := hbody.named hkind
  have hproject : ∀ (relevance : Nat) (doc : Document), project relevance doc body =
      .ok (if inclusion then take relevance doc (Projection.expand body)
        else restFields relevance doc (Projection.expand body)) := by
    intro relevance doc
    rw [project, hkind]
    rfl
  refine ⟨_, hproject relevance doc, fun path hid => ?_, fun again => ?_⟩
  · cases inclusion with
    | true =>
      simp only [if_true, candidates_take_named hbody hid]
      exact ⟨fun hcovered => hnamed.candidates_takeFields_of_covered hcovered doc,
        fun hapart => hnamed.candidates_takeFields_of_apart hapart doc⟩
    | false =>
      simp only [Bool.false_eq_true, if_false, candidates_restFields_named hbody hid hdoc]
      exact ⟨fun hcovered => hnamed.candidates_restFields_of_covered hcovered hdoc,
        fun hapart => hnamed.candidates_restFields_of_apart hapart hdoc⟩
  · rw [hproject]
    cases inclusion with
    | true => simp only [if_true, take_again hbody.expand]
    | false =>
      have hagain : restFields again (restFields relevance doc (Projection.expand body))
          (Projection.expand body) = restFields relevance doc (Projection.expand body) :=
        hbody.expand.restFields_again_of hdoc fun field hfield =>
          (hbody.expand.trees field hfield).restValue_again
      simp only [Bool.false_eq_true, if_false, hagain]

end Stage

/-! ### Names and cities -/

namespace NamesAndCities

/-- Ann with her home and her friends, one of whom is no document and one of whom has no name. -/
def ann : Document :=
  [("_id", .int32 1), ("name", .string "Ann"),
    ("home", .document [("zip", .string "2611"), ("city", .string "Delft")]),
    ("friends", .array [.document [("name", .string "Bob"), ("age", .int32 40)], .string "nobody",
      .document [("age", .int32 3)]])]

/-- Flags of several kinds, one below a dotted key and one in a document. -/
def asked : Document :=
  [("home.city", .boolean true), ("name", .int32 1), ("friends", .document [("name", .string "yes")])]

theorem flagBody_asked : FlagBody (fun _ => True) asked where
  distinct := by simp [Keyed.Distinct, Keyed.keys, asked]
  no_meta := by decide +kernel
  trees := by
    have hscalar : ∀ value : Value, (∀ fields, value ≠ .document fields) →
        FlagTree (fun _ => True) value := fun _ h => .flag h trivial
    simp only [asked, List.forall_mem_cons]
    refine ⟨hscalar _ (by simp), hscalar _ (by simp), ?_, by simp⟩
    refine .document (by simp) (by simp [Keyed.Distinct, Keyed.keys]) (by decide +kernel) ?_
    simpa using hscalar (.string "yes") (by simp)

theorem wellKeyed_ann : ann.WellKeyed := by
  simp [Document.wellKeyed_iff, ann, Value.WellKeyed, Value.WellKeyedFields, Value.WellKeyedItems,
    Keyed.Distinct, Keyed.keys]

/-- The names and the city stay, also in the documents of an array, and the zip goes. -/
theorem names_and_city_kept :
    FlagBody (fun _ => True) asked ∧ isInclusion (Projection.expand asked) = .ok true ∧ ann.WellKeyed ∧
      namedPaths asked = [["home", "city"], ["name"], ["friends", "name"]] ∧
      ∃ projected, project 0 ann asked = .ok projected ∧
        Path.candidates projected ["friends", "name"] = Path.candidates ann ["friends", "name"] ∧
        Path.candidates projected ["home", "zip"] = [] ∧
        ∀ again, project again projected asked = .ok projected := by
  have hflags : (flagsOfFields true (Projection.expand asked)).takes = true ∧
      (flagsOfFields true (Projection.expand asked)).leavesOut = false := by decide +kernel
  have hkind : isInclusion (Projection.expand asked) = .ok true := by
    simp [isInclusion, hflags.1, hflags.2]
  have hpaths : namedPaths asked = [["home", "city"], ["name"], ["friends", "name"]] := by decide +kernel
  obtain ⟨projected, hproject, hfound, hagain⟩ := project_named flagBody_asked hkind wellKeyed_ann 0
  refine ⟨flagBody_asked, hkind, wellKeyed_ann, hpaths, projected, hproject, ?_, ?_, hagain⟩
  · exact (hfound ["friends", "name"] (by decide)).1 ⟨_, by simp [hpaths], List.prefix_rfl⟩
  · refine (hfound ["home", "zip"] (by decide)).2 ?_
    rw [hpaths]
    unfold Path.Apart
    decide

end NamesAndCities

end DocQuery.Projection
