import DocQuery.Proofs.Answer.Exact

/-!
# Joins and the other documents of a batch

What a join puts in the place of an id depends on the store only, not on what else was fetched with
it (`Join.lastWithId_eq`).  So what becomes of a document depends on the rest of its batch in one way:
a join without an id in the whole batch is passed over, and then an array of nulls keeps its nulls,
while otherwise they are taken out (`Join.Disturbed`).  Resolving two batches together gives the
documents of each resolved by itself if and only if no batch disturbs the other one
(`Join.resolve_append_iff`).
-/

namespace DocQuery

open Selection

/-! ### What a projection makes of an id -/

namespace Projection

theorem get?_takeFields_of_notMem (relevance : Nat) (source : Document) {key : String}
    {flags : Document} (h : key ∉ Keyed.keys flags) (done : Document) :
    Document.get? (takeFields relevance source done flags) key = done.get? key := by
  induction flags generalizing done with
  | nil => rfl
  | cons field rest ih =>
    obtain ⟨name, flag⟩ := field
    obtain ⟨hname, hrest⟩ := not_or.1 (mt List.mem_cons.2 h)
    rw [takeFields, ih hrest]
    split
    · exact Path.get?_put_of_ne hname done _
    · split
      · exact Path.get?_put_of_ne hname done _
      · rfl

/-- Of an id stays the id, nothing, or the relevance in its place. -/
def KeepsId (relevance : Nat) (doc projected : Document) : Prop :=
  ∀ own, projected.get? "_id" = some own → doc.get? "_id" = some own ∨ own = scoreValue relevance

theorem keepsId_take (relevance : Nat) (doc body : Document) :
    KeepsId relevance doc (take relevance doc body) := by
  obtain ⟨start, hstart, htake⟩ := exists_take_eq relevance doc body
  have hnone : "_id" ∉ Keyed.keys (body.filter fun field => field.1 != "_id") := by
    simp [Keyed.keys]
  intro own hown
  rw [htake, get?_takeFields_of_notMem relevance doc hnone] at hown
  rcases hstart with rfl | ⟨id, hid, rfl⟩
  · cases hown
  · obtain rfl : id = own := by simpa [Document.get?] using hown
    exact .inl hid

theorem restValue_of_isId {relevance : Nat} {found : Option Value}
    (hfound : ∀ value, found = some value → value.IsId ∨ value = scoreValue relevance)
    (flag : Value) :
    restValue relevance found flag = found ∨ restValue relevance found flag = none := by
  cases flag with
  | document flags =>
    refine .inl ?_
    cases found with
    | none => rfl
    | some value =>
      rcases hfound value rfl with hid | rfl
      · cases hid <;> rfl
      · rfl
  | _ =>
    unfold restValue
    split
    · exact .inl rfl
    · exact .inr rfl

theorem KeepsId.trans {relevance : Nat} {doc next projected : Document}
    (h : KeepsId relevance doc next) (h' : KeepsId relevance next projected) :
    KeepsId relevance doc projected := by
  intro own hown
  rcases h' own hown with hsame | hscore
  · exact h own hsame
  · exact .inr hscore

theorem keepsId_put {relevance : Nat} {doc : Document} {key : String} {value : Value}
    (hvalue : key = "_id" → doc.get? "_id" = some value ∨ value = scoreValue relevance) :
    KeepsId relevance doc (doc.put key value) := by
  intro own hown
  by_cases hkey : "_id" = key
  · subst hkey
    rw [Path.get?_put_self] at hown
    obtain rfl := Option.some.inj hown
    exact hvalue rfl
  · rw [Path.get?_put_of_ne hkey] at hown
    exact .inl hown

theorem keepsId_erase (relevance : Nat) {doc : Document} (hdoc : Keyed.Distinct doc) (key : String) :
    KeepsId relevance doc (doc.erase key) := by
  intro own hown
  by_cases hkey : "_id" = key
  · subst hkey
    rw [Document.get?, Document.erase, Keyed.lookup_erase_self hdoc] at hown
    cases hown
  · rw [Path.get?_erase_of_ne hkey] at hown
    exact .inl hown

theorem keepsId_restFields {relevance : Nat} {doc : Document} (hdoc : Keyed.Distinct doc)
    (hid : ∀ own, doc.get? "_id" = some own → own.IsId ∨ own = scoreValue relevance)
    (flags : Document) : KeepsId relevance doc (restFields relevance doc flags) := by
  induction flags generalizing doc with
  | nil => exact fun own hown => .inl hown
  | cons field rest ih =>
    obtain ⟨key, flag⟩ := field
    have hstep : ∀ next : Document, Keyed.Distinct next → KeepsId relevance doc next →
        KeepsId relevance doc (restFields relevance next rest) := by
      intro next hnext hkeeps
      refine hkeeps.trans (ih hnext fun own hown => ?_)
      exact (hkeeps own hown).elim (hid own) .inr
    rw [restFields]
    split
    · exact hstep _ (hdoc.adjust _ _) (keepsId_put fun _ => .inr rfl)
    · split
      · next value hvalue =>
        refine hstep _ (hdoc.adjust _ _) (keepsId_put ?_)
        rintro rfl
        rcases restValue_of_isId hid flag with hsame | hnone
        · exact .inl (hsame.symm.trans hvalue)
        · rw [hnone] at hvalue
          cases hvalue
      · exact hstep _ (hdoc.erase key) (keepsId_erase relevance hdoc key)

/-- Whatever is projected, it keeps no other id than its own. -/
theorem keepsId_project {relevance : Nat} {doc body projected : Document} (hdoc : doc.WellKeyed)
    (hid : ∀ own, doc.get? "_id" = some own → own.IsId)
    (h : project relevance doc body = .ok projected) : KeepsId relevance doc projected := by
  obtain ⟨inclusion, -, rfl⟩ := Outcome.map_eq_ok_iff.1 h
  split
  · exact keepsId_take relevance doc _
  · obtain ⟨hdistinct, -⟩ := Document.wellKeyed_iff.1 hdoc
    exact keepsId_restFields hdistinct (fun own hown => .inl (hid own hown)) _

end Projection

/-! ### Batches of object ids -/

/-- The documents of a collection are named by object ids. -/
def StoredCollection.NamedByObjectIds (c : StoredCollection) : Prop :=
  ∀ doc ∈ c.docs, ∀ own, doc.get? "_id" = some own → ∃ id, own = .objectId id

/-- An object id, or null. -/
inductive Value.IsObjectIdOrNull : Value → Prop
  | objectId (id : ObjectId) : IsObjectIdOrNull (.objectId id)
  | null : IsObjectIdOrNull .null

namespace Join

/-- In the field of a join stand object ids, nulls, and arrays of both. -/
def HoldsObjectIds (docs : List Document) (join : Join) : Prop :=
  ∀ doc ∈ docs, ∀ value ∈ Path.candidates doc (Path.ofText join.field),
    value.IsObjectIdOrNull ∨ ∃ items, value = .array items ∧ ∀ item ∈ items, item.IsObjectIdOrNull

/-- An object id stands in the field of a join. -/
def Names (docs : List Document) (join : Join) (id : ObjectId) : Prop :=
  ∃ doc ∈ docs, .objectId id ∈ Path.candidates doc (Path.ofText join.field)

/-- An array with a null stands in the field of a join. -/
def HasNullItem (docs : List Document) (join : Join) : Prop :=
  ∃ doc ∈ docs, ∃ items, .array items ∈ Path.candidates doc (Path.ofText join.field) ∧ .null ∈ items

/-- A batch without an id for a join has an array with a null there, and other documents have an
id. -/
structure Disturbed (docs others : List Document) (join : Join) : Prop where
  without : ∀ id, ¬join.Names docs id
  null : join.HasNullItem docs
  id : ∃ id, join.Names others id

section Batch

variable {store : Store} {docs one two : List Document} {join : Join} {target : StoredCollection}

theorem names_append {id : ObjectId} :
    join.Names (one ++ two) id ↔ join.Names one id ∨ join.Names two id := by
  simp only [Names, List.mem_append, or_and_right, exists_or]

theorem holdsObjectIds_append :
    join.HoldsObjectIds (one ++ two) ↔ join.HoldsObjectIds one ∧ join.HoldsObjectIds two :=
  List.forall_mem_append

/-- The ids of a batch are the object ids in it. -/
theorem mem_idsIn_iff (hholds : join.HoldsObjectIds docs) {value : Value} :
    value ∈ idsIn docs join.field ↔ ∃ id, value = .objectId id ∧ join.Names docs id := by
  have hmem : ∀ {value}, value ∈ idsIn docs join.field →
      ∃ id, value = .objectId id ∧ join.Names docs id := by
    intro value h
    obtain ⟨doc, hdoc, hcandidate, harray, hnull⟩ := mem_idsIn h
    rcases hholds doc hdoc value hcandidate with hid | ⟨items, rfl, -⟩
    · cases hid with
      | objectId id => exact ⟨id, rfl, doc, hdoc, hcandidate⟩
      | null => cases hnull
    · cases harray
  refine ⟨hmem, ?_⟩
  rintro ⟨id, rfl, doc, hdoc, hcandidate⟩
  obtain ⟨first, hfirst, htext⟩ := exists_mem_idsIn hdoc hcandidate rfl rfl
  obtain ⟨other, rfl, -⟩ := hmem hfirst
  have hsame := (Value.equals_iff_display_eq (.objectId other) (.objectId id)).2 htext
  obtain rfl : other = id := beq_iff_eq.1 hsame
  exact hfirst

theorem idsIn_eq_nil_iff (hholds : join.HoldsObjectIds docs) :
    idsIn docs join.field = [] ↔ ∀ id, ¬join.Names docs id := by
  simp only [List.eq_nil_iff_forall_not_mem, mem_idsIn_iff hholds]
  exact ⟨fun h id hnames => h _ ⟨id, rfl, hnames⟩, fun h _ ⟨id, _, hnames⟩ => h id hnames⟩

/-- A document is fetched if its id stands in the batch. -/
theorem any_equalsAny_iff (hholds : join.HoldsObjectIds docs) {doc : Document}
    (hdoc : ∀ own, doc.get? "_id" = some own → ∃ id, own = .objectId id) :
    (idsIn docs join.field).any (Test.equalsAny doc "_id") = true ↔
      ∃ id, doc.get? "_id" = some (.objectId id) ∧ join.Names docs id := by
  have hown : ∀ own, doc.get? "_id" = some own → own.IsId := by
    intro own h
    obtain ⟨id, rfl⟩ := hdoc own h
    exact .objectId id
  simp only [List.any_eq_true, mem_idsIn_iff hholds]
  constructor
  · rintro ⟨_, ⟨id, rfl, hnames⟩, hequals⟩
    rw [equalsAny_id hown (.objectId id), Option.any_eq_true] at hequals
    obtain ⟨own, hget, hequals⟩ := hequals
    obtain ⟨other, rfl⟩ := hdoc own hget
    obtain rfl : other = id := beq_iff_eq.1 hequals
    exact ⟨other, hget, hnames⟩
  · rintro ⟨id, hget, hnames⟩
    refine ⟨_, ⟨id, rfl, hnames⟩, ?_⟩
    rw [equalsAny_id hown (.objectId id), hget]
    exact beq_self_eq_true id

/-- The fetch of a join is answered if each document with an id of the batch can be projected. -/
theorem exists_answer_iff (htarget : store.find? join.collection = some target)
    (hnamed : target.NamedByObjectIds) (hholds : join.HoldsObjectIds docs) :
    (∃ got, answer store docs join = .ok got) ↔
      ∀ doc ∈ target.docs, ∀ id, doc.get? "_id" = some (.objectId id) → join.Names docs id →
        ∃ projected, Projection.project 0 doc join.projection = .ok projected := by
  rw [answer_eq htarget, Outcome.exists_mapM_eq_ok_iff]
  simp only [List.mem_filter]
  constructor
  · intro h doc hdoc id hid hnames
    exact h doc ⟨hdoc, (any_equalsAny_iff hholds (hnamed doc hdoc)).2 ⟨id, hid, hnames⟩⟩
  · rintro h doc ⟨hdoc, hany⟩
    obtain ⟨id, hid, hnames⟩ := (any_equalsAny_iff hholds (hnamed doc hdoc)).1 hany
    exact h doc hdoc id hid hnames

/-- Two batches together are answered if each of them is. -/
theorem exists_answer_append_iff (htarget : store.find? join.collection = some target)
    (hnamed : target.NamedByObjectIds) (hone : join.HoldsObjectIds one)
    (htwo : join.HoldsObjectIds two) :
    (∃ got, answer store (one ++ two) join = .ok got) ↔
      (∃ got, answer store one join = .ok got) ∧ ∃ got, answer store two join = .ok got := by
  rw [exists_answer_iff htarget hnamed (holdsObjectIds_append.2 ⟨hone, htwo⟩),
    exists_answer_iff htarget hnamed hone, exists_answer_iff htarget hnamed htwo]
  simp only [names_append, or_imp, forall_and]

/-! ### The document for an object id -/

/-- The id of a projected document is its own object id, or no object id. -/
theorem display_projected {doc projected : Document} {own : Value} (hdoc : doc.WellKeyed)
    (hid : ∀ own, doc.get? "_id" = some own → ∃ id, own = .objectId id)
    (h : Projection.project 0 doc join.projection = .ok projected)
    (hown : projected.get? "_id" = some own) :
    (∃ id, own = .objectId id ∧ doc.get? "_id" = some own) ∨ own = Projection.scoreValue 0 := by
  have hisId : ∀ own, doc.get? "_id" = some own → own.IsId := by
    intro own h
    obtain ⟨id, rfl⟩ := hid own h
    exact .objectId id
  rcases Projection.keepsId_project hdoc hisId h own hown with hsame | hscore
  · obtain ⟨id, rfl⟩ := hid own hsame
    exact .inl ⟨id, rfl, hsame⟩
  · exact .inr hscore

/-- What stands in the place of an object id does not depend on the batch that it comes from. -/
theorem lastWithId_eq (hstore : store.WellKeyed)
    (htarget : store.find? join.collection = some target) (hnamed : target.NamedByObjectIds)
    (hholds : join.HoldsObjectIds docs) (hanswer : ∃ got, answer store docs join = .ok got)
    {id : ObjectId} (hnames : join.Names docs id) :
    lastWithId (found store docs join) (.objectId id) =
      (target.docs.reverse.find? (Shows join.projection (.objectId id))).bind
        fun doc => (Projection.project 0 doc join.projection).toOption := by
  have hids : target.NamedByIds := by
    intro doc hdoc own hown
    obtain ⟨id, rfl⟩ := hnamed doc hdoc own hown
    exact .objectId id
  refine lastWithId_found htarget hids hanswer
    ⟨_, (mem_idsIn_iff hholds).2 ⟨id, rfl, hnames⟩, .objectId id, rfl⟩ ?_
  intro doc hdoc hshown
  obtain ⟨projected, hprojected, hshown⟩ := (Option.any_eq_true _ _).1 hshown
  obtain ⟨own, hown, htext⟩ := Option.map_eq_some_iff.1 (beq_iff_eq.1 hshown)
  have hproject := Outcome.toOption_eq_some_iff.1 hprojected
  rcases display_projected (hstore _ _ htarget doc hdoc) (hnamed doc hdoc) hproject hown with
    ⟨_, -, hget⟩ | rfl
  · exact ⟨own, hget, htext⟩
  · have hbracket : Value.bracketOfText (Value.objectId id).display = 7 :=
      Value.bracketOfText_display (.objectId id)
    rw [← htext] at hbracket
    exact absurd hbracket (by decide +kernel)

/-- No document stands in the place of a null. -/
theorem lastWithId_null (hstore : store.WellKeyed)
    (htarget : store.find? join.collection = some target) (hnamed : target.NamedByObjectIds)
    (hanswer : ∃ got, answer store docs join = .ok got) :
    lastWithId (found store docs join) .null = none := by
  obtain ⟨got, hgot⟩ := hanswer
  rw [found_of_answer store docs hgot, Option.eq_none_iff_forall_ne_some]
  rw [answer_eq htarget] at hgot
  intro projected hlast
  have hshown := List.find?_some hlast
  obtain ⟨own, hown, htext⟩ := Option.map_eq_some_iff.1 (beq_iff_eq.1 hshown)
  obtain ⟨doc, hdoc, hproject⟩ := Outcome.exists_of_mapM hgot (mem_of_lastWithId hlast)
  have hdoc := (List.mem_filter.1 hdoc).1
  rcases display_projected (hstore _ _ htarget doc hdoc) (hnamed doc hdoc) hproject hown with
    ⟨id, rfl, -⟩ | rfl
  · have hbracket : Value.bracketOfText (Value.objectId id).display = 7 :=
      Value.bracketOfText_display (.objectId id)
    rw [htext] at hbracket
    exact absurd hbracket (by decide +kernel)
  · exact absurd htext (by decide +kernel)

/-- The object ids in an array stand in the field themselves. -/
theorem names_of_mem_array (hholds : join.HoldsObjectIds docs) {doc : Document} (hdoc : doc ∈ docs)
    {items : List Value} (hitems : .array items ∈ Path.candidates doc (Path.ofText join.field))
    {id : ObjectId} (hid : .objectId id ∈ items) : join.Names docs id := by
  rcases Path.mem_candidates_of_mem_array hitems hid with hfound | ⟨outer, houter, hnested⟩
  · exact ⟨doc, hdoc, hfound⟩
  · -- no array is an item of an array
    rcases hholds doc hdoc _ houter with houter | ⟨others, houter, hothers⟩
    · cases houter
    · obtain rfl := Value.array.inj houter
      cases hothers _ hnested

theorem wellKeyed_found (hstore : store.WellKeyed) (docs : List Document) (join : Join) :
    Document.AllWellKeyed (found store docs join) := by
  intro doc hdoc
  cases hanswer : answer store docs join with
  | error e => simp [found, hanswer, Except.toOption] at hdoc
  | ok got =>
    rw [found_of_answer store docs hanswer] at hdoc
    obtain ⟨original, relevance, hkeyed, hproject⟩ :=
      exists_of_fetch hstore (projection_ne_nil join) hanswer hdoc
    exact Projection.wellKeyed_project hkeyed hproject

theorem wellKeyed_change (hstore : store.WellKeyed) {value new : Value} (hvalue : value.WellKeyed)
    (h : change store docs join value = some new) : new.WellKeyed := by
  rw [change] at h
  split at h
  · exact Option.some.inj h ▸ hvalue
  · exact wellKeyed_joinedValue (wellKeyed_found hstore docs join) h

end Batch

/-! ### A batch and a wider one -/

/-- The fetch of a join for a batch of object ids is answered. -/
structure Answered (store : Store) (docs : List Document) (join : Join) : Prop where
  target : ∃ target, store.find? join.collection = some target ∧ target.NamedByObjectIds
  holds : join.HoldsObjectIds docs
  answer : ∃ got, answer store docs join = .ok got

section Wider

variable {store : Store} {docs wide : List Document} {join : Join}

theorem change_of_not_names (hholds : join.HoldsObjectIds docs) (h : ∀ id, ¬join.Names docs id) :
    change store docs join = some := if_pos ((idsIn_eq_nil_iff hholds).2 h)

theorem change_of_names (hholds : join.HoldsObjectIds docs) (h : ∃ id, join.Names docs id) :
    change store docs join = joinedValue (found store docs join) := by
  refine if_neg ?_
  rw [idsIn_eq_nil_iff hholds, not_forall_not]
  exact h

/-- What stands in the place of a value of a batch is the same if more documents are fetched for. -/
theorem joinedValue_eq (hstore : store.WellKeyed) (hsub : docs ⊆ wide)
    (hanswered : Answered store docs join) (hwide : Answered store wide join) {doc : Document}
    (hdoc : doc ∈ docs) {value : Value}
    (hvalue : value ∈ Path.candidates doc (Path.ofText join.field)) :
    joinedValue (found store wide join) value = joinedValue (found store docs join) value := by
  obtain ⟨target, htarget, hnamed⟩ := hanswered.target
  have hid : ∀ {id}, join.Names docs id →
      lastWithId (found store wide join) (.objectId id) =
        lastWithId (found store docs join) (.objectId id) := by
    rintro id ⟨other, hother, hcandidate⟩
    have hnames : join.Names docs id := ⟨other, hother, hcandidate⟩
    have hnamesWide : join.Names wide id := ⟨other, hsub hother, hcandidate⟩
    rw [lastWithId_eq hstore htarget hnamed hanswered.holds hanswered.answer hnames,
      lastWithId_eq hstore htarget hnamed hwide.holds hwide.answer hnamesWide]
  rcases hanswered.holds doc hdoc value hvalue with hone | ⟨items, rfl, hitems⟩
  · cases hone with
    | objectId id => exact congrArg (Option.map Value.document) (hid ⟨doc, hdoc, hvalue⟩)
    | null => rfl
  · rw [joinedValue, joinedValue]
    refine congrArg (fun items => some (Value.array items)) (List.filterMap_congr ?_)
    intro item hitem
    refine congrArg (Option.map Value.document) ?_
    cases hitems item hitem with
    | objectId id => exact hid (names_of_mem_array hanswered.holds hdoc hvalue hitem)
    | null =>
      rw [lastWithId_null hstore htarget hnamed hanswered.answer,
        lastWithId_null hstore htarget hnamed hwide.answer]

/-- More documents change nothing for a batch that they do not disturb. -/
theorem change_eq_of_not_disturbed (hstore : store.WellKeyed) (hsub : docs ⊆ wide)
    (hanswered : Answered store docs join) (hwide : Answered store wide join)
    (hdisturbed : ¬Disturbed docs wide join) {doc : Document} (hdoc : doc ∈ docs) {value : Value}
    (hvalue : value ∈ Path.candidates doc (Path.ofText join.field)) :
    change store wide join value = change store docs join value := by
  have hholds := hanswered.holds
  by_cases hnames : ∃ id, join.Names docs id
  · have hnamesWide : ∃ id, join.Names wide id := by
      obtain ⟨id, other, hother, hcandidate⟩ := hnames
      exact ⟨id, other, hsub hother, hcandidate⟩
    rw [change_of_names hholds hnames, change_of_names hwide.holds hnamesWide]
    exact joinedValue_eq hstore hsub hanswered hwide hdoc hvalue
  · have hnone := not_exists.1 hnames
    rw [change_of_not_names hholds hnone]
    by_cases hnamesWide : ∃ id, join.Names wide id
    · -- what is left without an id is null, or an array without items
      rw [change_of_names hwide.holds hnamesWide]
      rcases hholds doc hdoc value hvalue with hone | ⟨items, rfl, hitems⟩
      · cases hone with
        | objectId id => exact absurd ⟨doc, hdoc, hvalue⟩ (hnone id)
        | null => rfl
      · have hempty : items = [] := by
          rw [List.eq_nil_iff_forall_not_mem]
          intro item hitem
          cases hitems item hitem with
          | objectId id => exact hnone id (names_of_mem_array hholds hdoc hvalue hitem)
          | null => exact hdisturbed ⟨hnone, ⟨doc, hdoc, items, hvalue, hitem⟩, hnamesWide⟩
        rw [hempty]
        rfl
    · rw [change_of_not_names hwide.holds (not_exists.1 hnamesWide)]

variable {joins : List Join}

/-- Of a disturbed batch some document becomes another one. -/
theorem exists_ne_of_disturbed (hstore : store.WellKeyed)
    (hapart : joins.Pairwise fun join other =>
      Path.Apart (Path.ofText join.field) (Path.ofText other.field))
    (hdocs : Document.AllWellKeyed docs) (hjoin : join ∈ joins) (hholds : join.HoldsObjectIds docs)
    (hwide : join.HoldsObjectIds wide) (hdisturbed : Disturbed docs wide join) :
    ∃ doc ∈ docs, Path.updateAll (changesBy (change store wide) joins) doc ≠
      Path.updateAll (changesBy (change store docs) joins) doc := by
  obtain ⟨hnone, ⟨doc, hdoc, items, hitems, hnull⟩, hnames⟩ := hdisturbed
  have hallApart : ∀ changes, Path.AllApart (changesBy changes joins) :=
    fun _ => List.pairwise_map.2 hapart
  have hmem : ∀ changes, (Path.ofText join.field, changes join) ∈ changesBy changes joins :=
    fun _ => List.mem_map_of_mem hjoin
  refine ⟨doc, hdoc, fun heq => ?_⟩
  -- the array stays by itself, but what is joined has only documents in its arrays
  have hunchanged : change store docs join = some := change_of_not_names hholds hnone
  have hstays := Path.candidates_updateAll_of_some (hallApart _)
    (hunchanged ▸ hmem (change store docs)) doc
  rw [← hstays, ← heq] at hitems
  obtain ⟨value, new, hnew, hfound⟩ := Path.mem_candidates_updateAll (hallApart _)
    (hmem (change store wide)) (hdocs doc hdoc)
    (List.forall_mem_map.2 fun join _ value new => wellKeyed_change hstore) hitems
  rw [change_of_names hwide hnames] at hnew
  rcases joinedValue_cases hnew with rfl | ⟨other, -, rfl⟩ | ⟨others, rfl, hothers⟩
  · simp [Path.below] at hfound
  · simp [Path.below] at hfound
  · rw [Path.below, List.mem_cons] at hfound
    rcases hfound with hfound | hfound
    · obtain rfl := Value.array.inj hfound
      obtain ⟨_, -, h⟩ := hothers _ hnull
      cases h
    · obtain ⟨_, -, h⟩ := hothers _ hfound
      cases h

/-- What becomes of a batch is the same in a wider one if and only if that does not disturb it. -/
theorem map_updateAll_eq_iff (hstore : store.WellKeyed)
    (hapart : joins.Pairwise fun join other =>
      Path.Apart (Path.ofText join.field) (Path.ofText other.field))
    (hdocs : Document.AllWellKeyed docs) (hsub : docs ⊆ wide)
    (hanswered : ∀ join ∈ joins, Answered store docs join)
    (hwide : ∀ join ∈ joins, Answered store wide join) :
    docs.map (Path.updateAll (changesBy (change store wide) joins)) =
        docs.map (Path.updateAll (changesBy (change store docs) joins)) ↔
      ∀ join ∈ joins, ¬Disturbed docs wide join := by
  rw [List.map_inj_left]
  constructor
  · intro h join hjoin hdisturbed
    obtain ⟨doc, hdoc, hne⟩ := exists_ne_of_disturbed hstore hapart hdocs hjoin
      (hanswered join hjoin).holds (hwide join hjoin).holds hdisturbed
    exact hne (h doc hdoc)
  · intro h doc hdoc
    refine Path.updateAll_congr hapart fun join hjoin value hvalue => ?_
    exact change_eq_of_not_disturbed hstore hsub (hanswered join hjoin) (hwide join hjoin)
      (h join hjoin) hdoc hvalue

end Wider

/-! ### Two batches -/

section Append

variable {store : Store} {docs one two : List Document} {join : Join} {joins : List Join}

theorem disturbed_append_right : Disturbed one (one ++ two) join ↔ Disturbed one two join := by
  constructor
  · rintro ⟨hnone, hnull, id, hnames⟩
    exact ⟨hnone, hnull, id, (names_append.1 hnames).resolve_left (hnone id)⟩
  · rintro ⟨hnone, hnull, id, hnames⟩
    exact ⟨hnone, hnull, id, names_append.2 (.inr hnames)⟩

theorem disturbed_append_left : Disturbed two (one ++ two) join ↔ Disturbed two one join := by
  constructor
  · rintro ⟨hnone, hnull, id, hnames⟩
    exact ⟨hnone, hnull, id, (names_append.1 hnames).resolve_right (hnone id)⟩
  · rintro ⟨hnone, hnull, id, hnames⟩
    exact ⟨hnone, hnull, id, names_append.2 (.inl hnames)⟩

/-- Joins are resolved if all fetches are answered; a join without ids is answered by nothing. -/
theorem exists_resolve_iff
    (htargets : ∀ join ∈ joins, ∃ target, store.find? join.collection = some target) :
    (∃ joined, (resolve store.source joins docs).run.run = .ok joined) ↔
      ∀ join ∈ joins, ∃ got, answer store docs join = .ok got := by
  simp only [resolve_eq_ok_iff]
  constructor
  · rintro ⟨_, hanswers, -⟩ join hjoin
    by_cases hids : idsIn docs join.field = []
    · obtain ⟨target, htarget⟩ := htargets join hjoin
      refine ⟨[], ?_⟩
      rw [answer_eq htarget, hids, List.filter_eq_nil_iff.2 (by simp)]
      rfl
    · exact hanswers join hjoin hids
  · exact fun hanswers => ⟨_, fun join hjoin _ => hanswers join hjoin, rfl⟩

/-- The joins for a selection, as they are planned or with the protected fields taken away, stand at
fields that are apart. -/
theorem apart_of_plan {compiler : Compiler} {selection : Selection}
    (hjoins : joins = plan compiler.collection selection ∨
      compiler.planJoins selection = .ok joins) :
    joins.Pairwise fun join other =>
      Path.Apart (Path.ofText join.field) (Path.ofText other.field) := by
  have hfields : joins.map Join.field = (plan compiler.collection selection).map Join.field := by
    rcases hjoins with rfl | hjoins
    · rfl
    · exact Compiler.fields_stripJoins hjoins
  have hplan : ((plan compiler.collection selection).map Join.field).Pairwise fun field other =>
      Path.Apart (Path.ofText field) (Path.ofText other) :=
    List.pairwise_map.2 (apart_plan compiler.collection selection)
  rw [← hfields, List.pairwise_map] at hplan
  exact hplan

/-- **Joining is pointwise, up to arrays of nulls.**  If the documents of the store are named by
object ids and the fields of the joins hold object ids, nulls and arrays of both, then two batches can
be resolved together if and only if each of them can be, and this gives the documents of the one and
then those of the other if and only if neither batch disturbs the other one at a join. -/
theorem resolve_append_iff {compiler : Compiler} {selection : Selection}
    (hjoins : joins = plan compiler.collection selection ∨ compiler.planJoins selection = .ok joins)
    (hstore : store.WellKeyed) (hone : Document.AllWellKeyed one) (htwo : Document.AllWellKeyed two)
    (htargets : ∀ join ∈ joins, ∃ target, store.find? join.collection = some target ∧
      target.NamedByObjectIds)
    (hholdsOne : ∀ join ∈ joins, join.HoldsObjectIds one)
    (hholdsTwo : ∀ join ∈ joins, join.HoldsObjectIds two) :
    ((∃ joined, (resolve store.source joins (one ++ two)).run.run = .ok joined) ↔
      (∃ joined, (resolve store.source joins one).run.run = .ok joined) ∧
        ∃ joined, (resolve store.source joins two).run.run = .ok joined) ∧
    ∀ joinedOne joinedTwo, (resolve store.source joins one).run.run = .ok joinedOne →
      (resolve store.source joins two).run.run = .ok joinedTwo →
      ((resolve store.source joins (one ++ two)).run.run = .ok (joinedOne ++ joinedTwo) ↔
        ∀ join ∈ joins, ¬join.Disturbed one two ∧ ¬join.Disturbed two one) := by
  have hexists : (∃ joined, (resolve store.source joins (one ++ two)).run.run = .ok joined) ↔
      (∃ joined, (resolve store.source joins one).run.run = .ok joined) ∧
        ∃ joined, (resolve store.source joins two).run.run = .ok joined := by
    have hfound : ∀ join ∈ joins, ∃ target, store.find? join.collection = some target :=
      fun join hjoin => (htargets join hjoin).imp fun _ => And.left
    simp only [exists_resolve_iff hfound, ← forall₂_and]
    refine forall₂_congr fun join hjoin => ?_
    obtain ⟨target, htarget, hnamed⟩ := htargets join hjoin
    exact exists_answer_append_iff htarget hnamed (hholdsOne join hjoin) (hholdsTwo join hjoin)
  refine ⟨hexists, fun joinedOne joinedTwo hresolvedOne hresolvedTwo => ?_⟩
  have hanswered : ∀ {docs joined}, (∀ join ∈ joins, join.HoldsObjectIds docs) →
      (resolve store.source joins docs).run.run = .ok joined →
        ∀ join ∈ joins, Answered store docs join := by
    intro docs joined hholds hresolved join hjoin
    refine ⟨htargets join hjoin, hholds join hjoin, ?_⟩
    exact (exists_resolve_iff fun join hjoin => (htargets join hjoin).imp fun _ => And.left).1
      ⟨joined, hresolved⟩ join hjoin
  have hansweredOne := hanswered hholdsOne hresolvedOne
  have hansweredTwo := hanswered hholdsTwo hresolvedTwo
  obtain ⟨joined, hresolved⟩ := hexists.2 ⟨⟨_, hresolvedOne⟩, ⟨_, hresolvedTwo⟩⟩
  have hansweredBoth := hanswered (fun join hjoin =>
    holdsObjectIds_append.2 ⟨hholdsOne join hjoin, hholdsTwo join hjoin⟩) hresolved
  have hapart := apart_of_plan hjoins
  obtain ⟨-, rfl⟩ := (resolve_eq_ok_iff store one).1 hresolvedOne
  obtain ⟨-, rfl⟩ := (resolve_eq_ok_iff store two).1 hresolvedTwo
  obtain ⟨hanswers, -⟩ := (resolve_eq_ok_iff store (one ++ two)).1 hresolved
  have hsplit : ∀ {xs xs' ys ys' : List Document}, xs.length = xs'.length →
      (xs ++ ys = xs' ++ ys' ↔ xs' = xs ∧ ys' = ys) := fun hlength =>
    ⟨fun h => (List.append_inj h hlength).imp Eq.symm Eq.symm, fun h => by rw [h.1, h.2]⟩
  rw [resolve_eq_ok_iff, and_iff_right hanswers, List.map_append, hsplit (by simp),
    map_updateAll_eq_iff hstore hapart hone (List.subset_append_left _ _) hansweredOne
      hansweredBoth,
    map_updateAll_eq_iff hstore hapart htwo (List.subset_append_right _ _) hansweredTwo
      hansweredBoth,
    ← forall₂_and]
  simp only [disturbed_append_left, disturbed_append_right]

end Append

end Join

/-! ### Friends that are null -/

namespace PostsWithNames

open Join

/-- A post with nothing but friends. -/
def withFriends (friends : List Value) : Document := [("friends", .array friends)]

/-- What is put in the place of a friend, who is Ann or nobody. -/
def shown : Value → Option Value
  | .null => none
  | _ => some (.document [("_id", .objectId ann), ("name", .string "Ann")])

def compiler : Compiler := ⟨catalog, "posts", posts, []⟩

theorem joins_eq_plan : joins = plan compiler.collection named := by rfl

theorem namedByObjectIds : target.NamedByObjectIds := by
  intro doc hdoc own hown
  obtain ⟨id, name, rfl⟩ := exists_person hdoc
  exact ⟨id, (Option.some.inj hown).symm⟩

theorem find?_joins : ∀ join ∈ joins, store.find? join.collection = some target := by
  simp only [joins, List.forall_mem_cons]
  exact ⟨rfl, rfl, by simp⟩

section Friends

variable {friends : List (List Value)}

theorem wellKeyed_withFriends
    (h : ∀ items ∈ friends, ∀ item ∈ items, item = .null ∨ item = .objectId ann) :
    Document.AllWellKeyed (friends.map withFriends) := by
  refine List.forall_mem_map.2 fun items hitems => Document.wellKeyed_iff.2 ⟨?_, ?_⟩
  · simp [withFriends, Keyed.Distinct, Keyed.keys]
  · simp only [withFriends, List.forall_mem_singleton, Value.wellKeyed_array_iff]
    intro item hitem
    rcases h items hitems item hitem with rfl | rfl <;> trivial

theorem names_withFriends_iff {id : ObjectId} :
    (joined "friends" true).Names (friends.map withFriends) id ↔
      ∃ items ∈ friends, .objectId id ∈ items := by
  have hfriends : Path.ofText "friends" = ["friends"] := Path.ofText_of_plain (by decide)
  have hfound : ∀ items, Path.candidates (withFriends items) ["friends"] = .array items :: items :=
    fun _ => rfl
  simp [Names, joined, hfriends, hfound]

theorem holdsObjectIds_withFriends
    (h : ∀ items ∈ friends, ∀ item ∈ items, item = .null ∨ item = .objectId ann) :
    ∀ join ∈ joins, join.HoldsObjectIds (friends.map withFriends) := by
  have hauthor : Path.ofText "author" = ["author"] := Path.ofText_of_plain (by decide)
  have hfriends : Path.ofText "friends" = ["friends"] := Path.ofText_of_plain (by decide)
  have hnone : ∀ items, Path.candidates (withFriends items) ["author"] = [] := fun _ => rfl
  have hfound : ∀ items, Path.candidates (withFriends items) ["friends"] = .array items :: items :=
    fun _ => rfl
  have hitem : ∀ items ∈ friends, ∀ item ∈ items, item.IsObjectIdOrNull := by
    intro items hitems item hitem
    rcases h items hitems item hitem with rfl | rfl
    · exact .null
    · exact .objectId ann
  simp only [joins, joined, HoldsObjectIds, List.forall_mem_cons, List.forall_mem_map, hauthor,
    hfriends, hnone, hfound]
  refine ⟨by simp, fun items hitems => ⟨.inr ⟨items, rfl, hitem items hitems⟩, ?_⟩, by simp⟩
  exact fun item hmem => .inl (hitem items hitems item hmem)

theorem exists_answers (docs : List Document) :
    ∀ join ∈ joins, ∃ got, answer store docs join = .ok got := fun join hjoin =>
  exists_answer (find?_joins join hjoin) ((Querier.planned_of_compile compile_eq).2 join hjoin)

/-- Only the field of the friends changes. -/
theorem updateAll_withFriends {changes : Join → Value → Option Value} {items new : List Value}
    (h : changes (joined "friends" true) (.array items) = some (.array new)) :
    Path.updateAll (changesBy changes joins) (withFriends items) = withFriends new := by
  have hauthor : Path.ofText "author" = ["author"] := Path.ofText_of_plain (by decide)
  have hfriends : Path.ofText "friends" = ["friends"] := Path.ofText_of_plain (by decide)
  have hfills : changesBy changes joins = [(["author"], changes (joined "author" false)),
      (["friends"], changes (joined "friends" true))] := by
    rw [← hauthor, ← hfriends]
    rfl
  have hget : (withFriends items).get? "friends" = some (.array items) := rfl
  rw [hfills, Path.updateAll_cons, Path.updateAll_cons]
  show Path.update _ (withFriends items) ["friends"] = _
  rw [Path.update, hget]
  dsimp only
  rw [h]
  rfl

theorem lastWithId_ann (h : ∀ items ∈ friends, ∀ item ∈ items, item = .null ∨ item = .objectId ann)
    (hann : ∃ items ∈ friends, .objectId ann ∈ items) :
    lastWithId (found store (friends.map withFriends) (joined "friends" true)) (.objectId ann) =
      some [("_id", .objectId ann), ("name", .string "Ann")] := by
  have hmem : joined "friends" true ∈ joins := by simp [joins]
  rw [lastWithId_eq wellKeyed_store (find?_joins _ hmem) namedByObjectIds
    (holdsObjectIds_withFriends h _ hmem) (exists_answers _ _ hmem) (names_withFriends_iff.2 hann)]
  have hbody : (joined "friends" true).projection = [("name", .int32 included)] := rfl
  have hben : Shows [("name", .int32 included)] (.objectId ann) (person ben "Ben") = false := by
    rw [Shows, project_person]
    decide +kernel
  have hshown : Shows [("name", .int32 included)] (.objectId ann) (person ann "Ann") = true := by
    rw [Shows, project_person]
    decide +kernel
  have hdocs : target.docs.reverse = [person ben "Ben", person ann "Ann"] := rfl
  rw [hbody, hdocs, List.find?_cons_of_neg (by simp [hben]), List.find?_cons_of_pos hshown,
    Option.bind_some, project_person]
  rfl

/-- With an id among them, friends are joined and nulls are taken out. -/
theorem resolve_withFriends
    (h : ∀ items ∈ friends, ∀ item ∈ items, item = .null ∨ item = .objectId ann)
    (hann : ∃ items ∈ friends, .objectId ann ∈ items) :
    (resolve store.source joins (friends.map withFriends)).run.run =
      .ok (friends.map fun items => withFriends (items.filterMap shown)) := by
  have hmem : joined "friends" true ∈ joins := by simp [joins]
  refine (resolve_eq_ok_iff store _).2 ⟨fun join hjoin _ => exists_answers _ join hjoin, ?_⟩
  rw [List.map_map]
  refine List.map_congr_left fun items hitems => (updateAll_withFriends ?_).symm
  rw [change_of_names (holdsObjectIds_withFriends h _ hmem) ⟨ann, names_withFriends_iff.2 hann⟩,
    joinedValue]
  refine congrArg (fun items => some (Value.array items)) (List.filterMap_congr ?_)
  intro item hitem
  rcases h items hitems item hitem with rfl | rfl
  · rw [lastWithId_null wellKeyed_store (find?_joins _ hmem) namedByObjectIds
      (exists_answers _ _ hmem)]
    rfl
  · rw [lastWithId_ann h hann]
    rfl

/-- Posts with a friend who has an id are not disturbed. -/
theorem not_disturbed (hann : ∃ items ∈ friends, .objectId ann ∈ items) (others : List Document) :
    ∀ join ∈ joins, ¬join.Disturbed (friends.map withFriends) others := by
  have hauthor : Path.ofText "author" = ["author"] := Path.ofText_of_plain (by decide)
  simp only [joins, List.forall_mem_cons]
  refine ⟨?_, fun h => h.without ann (names_withFriends_iff.2 hann), by simp⟩
  rintro ⟨-, ⟨doc, hdoc, items, hfound, -⟩, -⟩
  obtain ⟨friends, -, rfl⟩ := List.mem_map.1 hdoc
  rw [joined, hauthor] at hfound
  cases hfound

/-- Without an id among them, nulls stay. -/
theorem resolve_nulls (h : ∀ items ∈ friends, ∀ item ∈ items, item = .null) :
    (resolve store.source joins (friends.map withFriends)).run.run =
      .ok (friends.map withFriends) := by
  have hmem : joined "friends" true ∈ joins := by simp [joins]
  have hnone : ∀ id, ¬(joined "friends" true).Names (friends.map withFriends) id := by
    intro id hid
    obtain ⟨items, hitems, hid⟩ := names_withFriends_iff.1 hid
    cases h items hitems _ hid
  have hholds := holdsObjectIds_withFriends fun items hitems item hitem =>
    .inl (h items hitems item hitem)
  refine (resolve_eq_ok_iff store _).2 ⟨fun join hjoin _ => exists_answers _ join hjoin, ?_⟩
  rw [List.map_map]
  refine List.map_congr_left fun items _ => (updateAll_withFriends ?_).symm
  rw [change_of_not_names (hholds _ hmem) hnone]

end Friends

/-- A null is taken out wherever its batch has an id of its own. -/
theorem nulls_taken_out_together :
    (resolve store.source joins ([withFriends [.objectId ann]] ++
      [withFriends [.null, .objectId ann]])).run.run =
        .ok ([withFriends ([.objectId ann].filterMap shown)] ++
          [withFriends ([.null, .objectId ann].filterMap shown)]) := by
  have hone : ∀ items ∈ [[Value.objectId ann]], ∀ item ∈ items,
      item = .null ∨ item = .objectId ann := by simp
  have htwo : ∀ items ∈ [[Value.null, .objectId ann]], ∀ item ∈ items,
      item = .null ∨ item = .objectId ann := by simp
  have hjoins : joins = plan compiler.collection named ∨ compiler.planJoins named = .ok joins :=
    .inl joins_eq_plan
  obtain ⟨-, happend⟩ := resolve_append_iff hjoins wellKeyed_store (wellKeyed_withFriends hone)
    (wellKeyed_withFriends htwo)
    (fun join hjoin => ⟨target, find?_joins join hjoin, namedByObjectIds⟩)
    (holdsObjectIds_withFriends hone) (holdsObjectIds_withFriends htwo)
  refine (happend _ _ (resolve_withFriends hone (by simp))
    (resolve_withFriends htwo (by simp))).2 ?_
  exact fun join hjoin =>
    ⟨not_disturbed (by simp) _ join hjoin, not_disturbed (by simp) _ join hjoin⟩

/-- A post whose only friend is null keeps the null by itself, but loses it next to a post whose
friend has an id. -/
theorem null_taken_out_next_to_an_id :
    (joins = plan compiler.collection named ∧ target.NamedByObjectIds ∧
      (∀ join ∈ joins, join.HoldsObjectIds [withFriends [.null]]) ∧
        ∀ join ∈ joins, join.HoldsObjectIds [withFriends [.objectId ann]]) ∧
      (resolve store.source joins [withFriends [.null]]).run.run = .ok [withFriends [.null]] ∧
      (resolve store.source joins [withFriends [.objectId ann]]).run.run =
        .ok [withFriends ([.objectId ann].filterMap shown)] ∧
      (resolve store.source joins ([withFriends [.null]] ++ [withFriends [.objectId ann]])).run.run =
        .ok ([withFriends []] ++ [withFriends ([.objectId ann].filterMap shown)]) := by
  have hnull : ∀ items ∈ [[Value.null]], ∀ item ∈ items, item = .null := by simp
  have hann : ∀ items ∈ [[Value.objectId ann]], ∀ item ∈ items,
      item = .null ∨ item = .objectId ann := by simp
  have hboth : ∀ items ∈ [[Value.null], [.objectId ann]], ∀ item ∈ items,
      item = .null ∨ item = .objectId ann := by simp
  have hheld : ∀ items ∈ [[Value.null]], ∀ item ∈ items, item = .null ∨ item = .objectId ann :=
    fun items hitems item hitem => .inl (hnull items hitems item hitem)
  have halone : [withFriends [.null]] = [[.null]].map withFriends := rfl
  have hother : [withFriends [.objectId ann]] = [[.objectId ann]].map withFriends := rfl
  rw [halone, hother, ← List.map_append]
  refine ⟨⟨joins_eq_plan, namedByObjectIds, holdsObjectIds_withFriends hheld,
    holdsObjectIds_withFriends hann⟩, resolve_nulls hnull, ?_, ?_⟩
  · rw [resolve_withFriends hann (by simp)]
    rfl
  · rw [List.singleton_append, resolve_withFriends hboth (by simp)]
    rfl

end PostsWithNames

end DocQuery
