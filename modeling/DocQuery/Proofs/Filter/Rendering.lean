import DocQuery.Proofs.Filter.Reading
import DocQuery.Proofs.Keyed
import DocQuery.Query.Filter

/-!
# The rendering of a filter keeps its meaning

Every clause is rendered as a document with one field.  `Filter.toDocument` puts these fields into
one document as long as their keys are new, and lays the others aside as an array of conditions.
`Rendering.Gathers` says that nothing is lost or written twice on the way: the fields in the document
and those of the documents laid aside are those of the clauses, in some order.  Since a body is
decided field by field, it follows that the whole document is readable if the clauses are
(`readable_toDocument_iff`) and admits what they admit together (`admits_toDocument_iff`).

`Clause.Holds` is the Boolean combination that a clause writes, `Clause.admits_toDocument_iff` says that
its own rendering means just that.
-/

namespace DocQuery

open Test

/-! ### The meaning of clauses -/

namespace Clause

mutual

/-- A clause as a Boolean combination of its conditions, where `joined` says which of the clauses on
joined fields hold. -/
def Holds (joined : JoinedClause → Prop) (doc : Document) (relevance : Nat) : Clause → Prop
  | .field path condition => Admits [(path, condition)] doc relevance
  | .joined clause => joined clause
  | .all clauses => HoldsAll joined doc relevance clauses
  | .any clauses => HoldsAny joined doc relevance clauses

def HoldsAll (joined : JoinedClause → Prop) (doc : Document) (relevance : Nat) :
    List Clause → Prop
  | [] => True
  | clause :: rest => clause.Holds joined doc relevance ∧ HoldsAll joined doc relevance rest

def HoldsAny (joined : JoinedClause → Prop) (doc : Document) (relevance : Nat) :
    List Clause → Prop
  | [] => False
  | clause :: rest => clause.Holds joined doc relevance ∨ HoldsAny joined doc relevance rest

end

theorem holdsAll_iff {joined : JoinedClause → Prop} {doc : Document} {relevance : Nat}
    {clauses : List Clause} :
    HoldsAll joined doc relevance clauses ↔ ∀ clause ∈ clauses, clause.Holds joined doc relevance := by
  induction clauses with
  | nil => simp [HoldsAll]
  | cons clause rest ih => simp [HoldsAll, ih]

theorem holdsAny_iff {joined : JoinedClause → Prop} {doc : Document} {relevance : Nat}
    {clauses : List Clause} :
    HoldsAny joined doc relevance clauses ↔ ∃ clause ∈ clauses, clause.Holds joined doc relevance := by
  induction clauses with
  | nil => simp [HoldsAny]
  | cons clause rest ih => simp [HoldsAny, ih]

/-- One of the ids that are filed for a clause on a joined field is found in that field. -/
def FoundIn (resolved : ResolvedIds) (doc : Document) (clause : JoinedClause) : Prop :=
  ∃ id ∈ resolved.get clause.slot, equalsAny doc clause.field id = true

theorem toValues_eq_map (resolved : ResolvedIds) (clauses : List Clause) :
    toValues resolved clauses = (clauses.map (toDocument resolved)).map .document := by
  induction clauses with
  | nil => rfl
  | cons clause rest ih => simp [toValues, ih]

/-- Induction over clauses: what holds of the clauses in a list is known of each of them. -/
theorem ind {P : Clause → Prop} (field : ∀ path condition, P (.field path condition))
    (joined : ∀ clause, P (.joined clause))
    (all : ∀ clauses : List Clause, (∀ clause ∈ clauses, P clause) → P (.all clauses))
    (any : ∀ clauses : List Clause, (∀ clause ∈ clauses, P clause) → P (.any clauses)) :
    ∀ clause, P clause := by
  intro clause
  apply Clause.rec (motive_1 := P) (motive_2 := fun clauses => ∀ clause ∈ clauses, P clause)
  · exact field
  · exact joined
  · exact all
  · exact any
  · intro clause h
    cases h
  · intro clause rest h hrest
    exact List.forall_mem_cons.2 ⟨h, hrest⟩

theorem toDocument_all_of_ne_singleton (resolved : ResolvedIds) {clauses : List Clause}
    (h : ∀ only, clauses ≠ [only]) :
    toDocument resolved (.all clauses) = [("$and", .array (toValues resolved clauses))] := by
  rw [toDocument]
  exact h

/-- A clause is rendered as one field. -/
theorem exists_field_eq (resolved : ResolvedIds) (clause : Clause) :
    ∃ field, clause.toDocument resolved = [field] := by
  induction clause using ind with
  | field path condition => exact ⟨_, rfl⟩
  | joined clause => exact ⟨_, rfl⟩
  | all clauses ih =>
    by_cases h : ∃ only, clauses = [only]
    · obtain ⟨only, rfl⟩ := h
      exact ih only (by simp)
    · exact ⟨_, toDocument_all_of_ne_singleton resolved fun only e => h ⟨only, e⟩⟩
  | any clauses _ => exact ⟨_, rfl⟩

/-! ### The rendering of one clause -/

variable {resolved : ResolvedIds} {doc : Document} {relevance : Nat} {clauses : List Clause}

theorem reads_all_iff {P : Test → Prop} (hP : Conjunctive P) :
    Reads P (toDocument resolved (.all clauses)) ↔
      clauses ≠ [] ∧ ∀ clause ∈ clauses, Reads P (clause.toDocument resolved) := by
  by_cases h : ∃ only, clauses = [only]
  · obtain ⟨only, rfl⟩ := h
    simp [toDocument]
  · rw [toDocument_all_of_ne_singleton resolved fun only e => h ⟨only, e⟩, toValues_eq_map,
      reads_and_iff hP]
    simp

theorem readable_all_iff : Readable (toDocument resolved (.all clauses)) ↔
    clauses ≠ [] ∧ ∀ clause ∈ clauses, Readable (clause.toDocument resolved) := by
  simp only [readable_iff_reads]
  exact reads_all_iff conjunctive_true

theorem admits_all_iff : Admits (toDocument resolved (.all clauses)) doc relevance ↔
    clauses ≠ [] ∧ ∀ clause ∈ clauses, Admits (clause.toDocument resolved) doc relevance :=
  reads_all_iff (conjunctive_holds doc relevance)

theorem readable_any_iff : Readable (toDocument resolved (.any clauses)) ↔
    clauses ≠ [] ∧ ∀ clause ∈ clauses, Readable (clause.toDocument resolved) := by
  rw [toDocument, toValues_eq_map, readable_or_iff]
  simp

theorem admits_any_iff : Admits (toDocument resolved (.any clauses)) doc relevance ↔
    (∀ clause ∈ clauses, Readable (clause.toDocument resolved)) ∧
      ∃ clause ∈ clauses, Admits (clause.toDocument resolved) doc relevance := by
  rw [toDocument, toValues_eq_map, admits_or_iff]
  simp

theorem admits_joined_iff {clause : JoinedClause}
    (h : Readable (toDocument resolved (.joined clause))) :
    Admits (toDocument resolved (.joined clause)) doc relevance ↔ FoundIn resolved doc clause := by
  rw [toDocument] at h ⊢
  rw [admits_singleton_iff, readField_in (readable_in_iff.1 h)]
  simp [FoundIn, holds]

/-- The rendering of a clause means the Boolean combination that the clause writes. -/
theorem admits_toDocument_iff (clause : Clause) (h : Readable (clause.toDocument resolved)) :
    Admits (clause.toDocument resolved) doc relevance ↔
      clause.Holds (FoundIn resolved doc) doc relevance := by
  induction clause using ind with
  | field path condition => rfl
  | joined clause => exact admits_joined_iff h
  | all clauses ih =>
    obtain ⟨hne, hread⟩ := readable_all_iff.1 h
    rw [admits_all_iff, Holds, holdsAll_iff]
    constructor
    · rintro ⟨_, hadm⟩ clause hc
      exact (ih clause hc (hread clause hc)).1 (hadm clause hc)
    · intro hold
      refine ⟨hne, ?_⟩
      intro clause hc
      exact (ih clause hc (hread clause hc)).2 (hold clause hc)
  | any clauses ih =>
    obtain ⟨_, hread⟩ := readable_any_iff.1 h
    rw [admits_any_iff, Holds, holdsAny_iff]
    constructor
    · rintro ⟨_, clause, hc, hadm⟩
      exact ⟨clause, hc, (ih clause hc (hread clause hc)).1 hadm⟩
    · rintro ⟨clause, hc, hold⟩
      exact ⟨hread, clause, hc, (ih clause hc (hread clause hc)).2 hold⟩

end Clause

/-! ### The rendering of a filter -/

namespace Filter

/-- The fields that were put into one document and those of the documents laid aside are the fields
of the given clauses, in some order. -/
structure Rendering.Gathers (done : Rendering) (clauses : List Document) : Prop where
  plain : ∀ field ∈ done.fields, isOperatorKey field.1 = false
  split : ∃ aside : List Document, done.apart = aside.map .document ∧
    (done.fields ++ aside.flatten).Perm clauses.flatten

theorem Rendering.gathers_nil : Rendering.Gathers ⟨[], []⟩ [] where
  plain := by simp
  split := ⟨[], rfl, List.Perm.refl _⟩

/-- One more clause: it is laid aside, or its key is new and its field comes last. -/
theorem Rendering.Gathers.add {done : Rendering} {clauses : List Document} (h : done.Gathers clauses)
    (field : String × Value) : (done.add [field]).Gathers (clauses ++ [[field]]) := by
  obtain ⟨aside, happart, hperm⟩ := h.split
  unfold Rendering.add
  split
  · refine ⟨h.plain, aside ++ [[field]], by simp [happart], ?_⟩
    simpa [List.flatten_append, ← List.append_assoc] using hperm.append_right [field]
  · next hnew =>
    simp only [List.any_cons, List.any_nil, Bool.or_false, Bool.or_eq_true, not_or,
      Bool.not_eq_true] at hnew
    obtain ⟨hop, hkey⟩ := hnew
    have hput : Keyed.putAll done.fields [field] = done.fields ++ [field] := by
      refine Keyed.put_of_notMem ?_ _
      rw [← Keyed.contains_iff_mem_keys]
      exact Bool.not_eq_true _ ▸ hkey
    refine ⟨?_, aside, happart, ?_⟩
    · intro other hother
      rw [hput] at hother
      rcases List.mem_append.1 hother with hother | hother
      · exact h.plain other hother
      · rw [List.mem_singleton.1 hother]
        exact hop
    · rw [hput, List.flatten_append, List.flatten_singleton, List.append_assoc]
      exact (List.perm_append_comm.append_left _).trans
        (by simpa [← List.append_assoc] using hperm.append_right [field])

/-- The fields and documents that the clauses of `all` are rendered to. -/
def gathered (filter : Filter) (resolved : ResolvedIds) : Rendering :=
  filter.all.foldl (fun done clause => done.add (clause.toDocument resolved)) ⟨[], []⟩

theorem gathered_gathers (filter : Filter) (resolved : ResolvedIds) :
    (filter.gathered resolved).Gathers (filter.all.map (Clause.toDocument resolved)) := by
  suffices h : ∀ (clauses : List Clause) (done : Rendering) (written : List Document),
      done.Gathers written →
        (clauses.foldl (fun done clause => done.add (clause.toDocument resolved)) done).Gathers
          (written ++ clauses.map (Clause.toDocument resolved)) by
    simpa [gathered] using h filter.all ⟨[], []⟩ [] Rendering.gathers_nil
  intro clauses
  induction clauses with
  | nil => intro done written h; simpa using h
  | cons clause rest ih =>
    intro done written h
    obtain ⟨field, hfield⟩ := clause.exists_field_eq resolved
    have hadd : (done.add (clause.toDocument resolved)).Gathers
        (written ++ [clause.toDocument resolved]) := by
      rw [hfield]
      exact h.add field
    have hrest := ih (done.add (clause.toDocument resolved))
      (written ++ [clause.toDocument resolved]) hadd
    simpa using hrest

/-- The field that joins the clauses of `any`. -/
def anyFields (filter : Filter) (resolved : ResolvedIds) : Document :=
  if filter.any.isEmpty then [] else [("$or", .array (Clause.toValues resolved filter.any))]

/-- The field of the text search. -/
def textFields (filter : Filter) : Document :=
  filter.text.toList.map fun text => ("$text", .document [("$search", .string text)])

/-- The field that joins the documents laid aside. -/
def apartFields (filter : Filter) (resolved : ResolvedIds) : Document :=
  if (filter.gathered resolved).apart.isEmpty then []
  else [("$and", .array (filter.gathered resolved).apart)]

theorem notMem_keys_of_plain {fields : Document} {key : String} (hop : isOperatorKey key = true)
    (h : ∀ field ∈ fields, isOperatorKey field.1 = false) : key ∉ Keyed.keys fields := by
  intro hmem
  obtain ⟨field, hf, rfl⟩ := List.mem_map.1 hmem
  simp [h field hf] at hop

theorem keys_anyFields (filter : Filter) (resolved : ResolvedIds) {key : String}
    (h : key ∈ Keyed.keys (filter.anyFields resolved)) : key = "$or" := by
  unfold anyFields at h
  split at h
  · cases h
  · simpa [Keyed.keys] using h

theorem keys_textFields (filter : Filter) {key : String}
    (h : key ∈ Keyed.keys filter.textFields) : key = "$text" := by
  unfold textFields at h
  cases htext : filter.text with
  | none => simp [htext, Keyed.keys] at h
  | some text => simpa [htext, Keyed.keys] using h

/-- A document with the field for the clauses of `any`. -/
def putAny (filter : Filter) (resolved : ResolvedIds) (doc : Document) : Document :=
  if filter.any.isEmpty then doc
  else doc.put "$or" (.array (Clause.toValues resolved filter.any))

/-- A document with the field for the text search. -/
def putText (filter : Filter) (doc : Document) : Document :=
  match filter.text with
  | some text => doc.put "$text" (.document [("$search", .string text)])
  | none => doc

theorem putAny_eq (filter : Filter) (resolved : ResolvedIds) {doc : Document}
    (h : "$or" ∉ Keyed.keys doc) : filter.putAny resolved doc = doc ++ filter.anyFields resolved := by
  unfold putAny anyFields
  split
  · simp
  · exact Keyed.put_of_notMem h _

theorem putText_eq (filter : Filter) {doc : Document} (h : "$text" ∉ Keyed.keys doc) :
    filter.putText doc = doc ++ filter.textFields := by
  unfold putText textFields
  cases filter.text with
  | none => simp
  | some text => exact Keyed.put_of_notMem h _

/-- No field of the whole document overwrites another one. -/
theorem toDocument_eq (filter : Filter) (resolved : ResolvedIds) :
    filter.toDocument resolved =
      (filter.gathered resolved).fields ++ filter.anyFields resolved ++ filter.textFields ++
        filter.apartFields resolved := by
  have hplain := (filter.gathered_gathers resolved).plain
  set fields := (filter.gathered resolved).fields
  have hany : ∀ {key : String}, key ≠ "$or" → key ∉ Keyed.keys (filter.anyFields resolved) :=
    fun hne hmem => hne (filter.keys_anyFields resolved hmem)
  have hor : "$or" ∉ Keyed.keys fields := notMem_keys_of_plain (by decide) hplain
  have htext : "$text" ∉ Keyed.keys (fields ++ filter.anyFields resolved) := by
    rw [Keyed.keys_append, List.mem_append, not_or]
    exact ⟨notMem_keys_of_plain (by decide) hplain, hany (by decide)⟩
  have hand : "$and" ∉ Keyed.keys (fields ++ filter.anyFields resolved ++ filter.textFields) := by
    have hne : "$and" ∉ Keyed.keys filter.textFields :=
      fun hmem => absurd (filter.keys_textFields hmem) (by decide)
    simp only [Keyed.keys_append, List.mem_append, not_or]
    exact ⟨⟨notMem_keys_of_plain (by decide) hplain, hany (by decide)⟩, hne⟩
  have hdoc : filter.toDocument resolved =
      if (filter.gathered resolved).apart.isEmpty then filter.putText (filter.putAny resolved fields)
      else (filter.putText (filter.putAny resolved fields)).put "$and"
        (.array (filter.gathered resolved).apart) := rfl
  rw [hdoc, putAny_eq filter resolved hor, putText_eq filter htext]
  unfold apartFields
  split
  · simp
  · exact Keyed.put_of_notMem hand _

/-! ### The meaning of the whole document -/

section Meaning

variable (filter : Filter) (resolved : ResolvedIds)

/-- The clauses of `all` are read as tests with a property if the fields that they are rendered to
are. -/
theorem reads_gathered_iff {P : Test → Prop} (hP : Conjunctive P) :
    ((∀ field ∈ (filter.gathered resolved).fields, Reads P [field]) ∧
        ∀ field ∈ filter.apartFields resolved, Reads P [field]) ↔
      ∀ clause ∈ filter.all, Reads P (clause.toDocument resolved) := by
  obtain ⟨aside, happart, hperm⟩ := (filter.gathered_gathers resolved).split
  have haside : (∀ field ∈ filter.apartFields resolved, Reads P [field]) ↔
      ∀ field ∈ aside.flatten, Reads P [field] := by
    unfold apartFields
    rw [happart]
    cases aside with
    | nil => simp
    | cons body rest =>
      simp only [List.map_cons, List.isEmpty_cons, Bool.false_eq_true, if_false,
        List.forall_mem_singleton]
      rw [← List.map_cons, reads_and_iff hP, List.forall_mem_flatten,
        and_iff_right (List.cons_ne_nil body rest)]
      exact forall₂_congr fun body _ => reads_iff_forall hP body
  rw [haside, ← List.forall_mem_append]
  calc (∀ field ∈ (filter.gathered resolved).fields ++ aside.flatten, Reads P [field])
      ↔ ∀ field ∈ (filter.all.map (Clause.toDocument resolved)).flatten, Reads P [field] :=
        forall_congr' fun field => by rw [hperm.mem_iff]
    _ ↔ ∀ body ∈ filter.all.map (Clause.toDocument resolved), Reads P body := by
        rw [List.forall_mem_flatten]
        exact forall₂_congr fun body _ => (reads_iff_forall hP body).symm
    _ ↔ ∀ clause ∈ filter.all, Reads P (clause.toDocument resolved) := List.forall_mem_map

theorem reads_toDocument_iff {P : Test → Prop} (hP : Conjunctive P) :
    Reads P (filter.toDocument resolved) ↔
      (∀ clause ∈ filter.all, Reads P (clause.toDocument resolved)) ∧
        (∀ field ∈ filter.anyFields resolved, Reads P [field]) ∧
        ∀ field ∈ filter.textFields, Reads P [field] := by
  rw [reads_iff_forall hP, toDocument_eq, ← filter.reads_gathered_iff resolved hP]
  simp only [List.forall_mem_append]
  tauto

theorem readable_textFields : ∀ field ∈ filter.textFields, Readable [field] := by
  unfold textFields
  cases filter.text with
  | none => simp
  | some text => simpa using readable_singleton_iff.2 ⟨_, readField_text text⟩

theorem readable_anyFields_iff : (∀ field ∈ filter.anyFields resolved, Readable [field]) ↔
    ∀ clause ∈ filter.any, Readable (clause.toDocument resolved) := by
  unfold anyFields
  cases hany : filter.any with
  | nil => simp
  | cons clause rest =>
    simp only [List.isEmpty_cons, Bool.false_eq_true, if_false, List.forall_mem_singleton]
    rw [Clause.toValues_eq_map, readable_or_iff, List.forall_mem_map]
    simp

/-- A filter can be read if its clauses can. -/
theorem readable_toDocument_iff : Readable (filter.toDocument resolved) ↔
    ∀ clause ∈ filter.all ++ filter.any, Readable (clause.toDocument resolved) := by
  have h := filter.reads_toDocument_iff resolved conjunctive_true
  simp only [← readable_iff_reads] at h
  rw [h, List.forall_mem_append, readable_anyFields_iff]
  exact and_congr_right fun _ => and_iff_left filter.readable_textFields

variable {doc : Document} {relevance : Nat}

theorem admits_textFields_iff : (∀ field ∈ filter.textFields, Admits [field] doc relevance) ↔
    (filter.text = none ∨ 0 < relevance) := by
  unfold textFields
  cases filter.text with
  | none => simp
  | some text =>
    simp only [Option.toList_some, List.map_cons, List.map_nil, List.forall_mem_singleton,
      reduceCtorEq, false_or]
    rw [admits_singleton_iff, readField_text]
    simp [holds]

theorem admits_anyFields_iff
    (hread : ∀ clause ∈ filter.any, Readable (clause.toDocument resolved)) :
    (∀ field ∈ filter.anyFields resolved, Admits [field] doc relevance) ↔
      (filter.any = [] ∨
        ∃ clause ∈ filter.any, Admits (clause.toDocument resolved) doc relevance) := by
  unfold anyFields
  cases hany : filter.any with
  | nil => simp
  | cons clause rest =>
    rw [hany] at hread
    simp only [List.isEmpty_cons, Bool.false_eq_true, if_false, List.forall_mem_singleton,
      reduceCtorEq, false_or]
    rw [Clause.toValues_eq_map, admits_or_iff, List.forall_mem_map,
      and_iff_right hread]
    simp only [List.mem_map, exists_exists_and_eq_and]

/-- A filter that can be read admits what all clauses of `all` admit, one of `any` if there are any,
and the text search. -/
theorem admits_toDocument_iff (hread : Readable (filter.toDocument resolved)) :
    Admits (filter.toDocument resolved) doc relevance ↔
      (∀ clause ∈ filter.all, Admits (clause.toDocument resolved) doc relevance) ∧
        (filter.any = [] ∨
          ∃ clause ∈ filter.any, Admits (clause.toDocument resolved) doc relevance) ∧
        (filter.text = none ∨ 0 < relevance) := by
  rw [readable_toDocument_iff, List.forall_mem_append] at hread
  rw [← filter.admits_anyFields_iff resolved hread.2, ← admits_textFields_iff]
  exact filter.reads_toDocument_iff resolved (conjunctive_holds doc relevance)

end Meaning

/-- **The rendering keeps the meaning of a filter.**  It can be read if each clause can be read on
its own, and then it admits a document if every clause of `all` does, one of `any` does unless there
are none, and the document fits the text search.  The rendering of a clause on its own means the
Boolean combination that the clause writes, however deep. -/
theorem toDocument_keeps_meaning (filter : Filter) (resolved : ResolvedIds) :
    (Readable (filter.toDocument resolved) ↔
      ∀ clause ∈ filter.all ++ filter.any, Readable (clause.toDocument resolved)) ∧
    (∀ test, Test.read (filter.toDocument resolved) = .ok test → ∀ doc relevance,
      (test.holds doc relevance = true ↔
        (∀ clause ∈ filter.all, Admits (clause.toDocument resolved) doc relevance) ∧
          (filter.any = [] ∨
            ∃ clause ∈ filter.any, Admits (clause.toDocument resolved) doc relevance) ∧
          (filter.text = none ∨ 0 < relevance))) ∧
    ∀ clause : Clause, Readable (clause.toDocument resolved) → ∀ doc relevance,
      (Admits (clause.toDocument resolved) doc relevance ↔
        clause.Holds (Clause.FoundIn resolved doc) doc relevance) := by
  refine ⟨filter.readable_toDocument_iff resolved, ?_, ?_⟩
  · intro test hread doc relevance
    rw [← filter.admits_toDocument_iff resolved ⟨test, hread⟩]
    simp [Admits, hread]
  · intro clause hread doc relevance
    exact clause.admits_toDocument_iff hread

end Filter

end DocQuery
