import DocQuery.Path
import DocQuery.Proofs.Keyed

/-!
# Documents with distinct keys

In a stored document no key stands twice, at any depth.  Erasing a key relies on it, and whatever is
done to documents keeps it: `WellKeyed` is this invariant.
-/

namespace DocQuery

namespace Value

mutual

/-- In no document of a value does a key stand twice, and in no scope of code either. -/
def WellKeyed : Value → Prop
  | .document fields => Keyed.Distinct fields ∧ WellKeyedFields fields
  | .codeWithScope _ scope => Keyed.Distinct scope ∧ WellKeyedFields scope
  | .array items => WellKeyedItems items
  | _ => True

def WellKeyedFields : List (String × Value) → Prop
  | [] => True
  | (_, value) :: rest => value.WellKeyed ∧ WellKeyedFields rest

def WellKeyedItems : List Value → Prop
  | [] => True
  | value :: rest => value.WellKeyed ∧ WellKeyedItems rest

end

theorem wellKeyedFields_iff {fields : List (String × Value)} :
    WellKeyedFields fields ↔ ∀ field ∈ fields, field.2.WellKeyed := by
  induction fields with
  | nil => simp [WellKeyedFields]
  | cons field rest ih => rw [WellKeyedFields, ih, List.forall_mem_cons]

theorem wellKeyed_array_iff {items : List Value} :
    (Value.array items).WellKeyed ↔ ∀ item ∈ items, item.WellKeyed := by
  rw [WellKeyed]
  induction items with
  | nil => simp [WellKeyedItems]
  | cons item rest ih => rw [WellKeyedItems, ih, List.forall_mem_cons]

theorem wellKeyed_codeWithScope_iff {s : String} {scope : List (String × Value)} :
    (codeWithScope s scope).WellKeyed ↔ (document scope).WellKeyed := by
  rw [WellKeyed, WellKeyed]

end Value

/-- In no document inside of a document does a key stand twice. -/
def Document.WellKeyed (doc : Document) : Prop := (Value.document doc).WellKeyed

namespace Document

variable {doc : Document} {key : String} {value : Value}

theorem wellKeyed_iff :
    doc.WellKeyed ↔ Keyed.Distinct doc ∧ ∀ field ∈ doc, field.2.WellKeyed := by
  rw [WellKeyed, Value.WellKeyed, Value.wellKeyedFields_iff]

theorem wellKeyed_nil : WellKeyed [] := wellKeyed_iff.2 ⟨List.nodup_nil, by simp⟩

theorem WellKeyed.get (h : doc.WellKeyed) (hget : doc.get? key = some value) : value.WellKeyed :=
  (wellKeyed_iff.1 h).2 _ (Keyed.mem_of_lookup hget)

theorem WellKeyed.put (h : doc.WellKeyed) (key : String) (hvalue : value.WellKeyed) :
    (doc.put key value).WellKeyed := by
  obtain ⟨hkeys, hvalues⟩ := wellKeyed_iff.1 h
  refine wellKeyed_iff.2 ⟨hkeys.adjust key _, fun field hfield => ?_⟩
  rcases Keyed.mem_adjust hfield with hfield | rfl
  · exact hvalues field hfield
  · exact hvalue

theorem WellKeyed.erase (h : doc.WellKeyed) (key : String) : (doc.erase key).WellKeyed := by
  obtain ⟨hkeys, hvalues⟩ := wellKeyed_iff.1 h
  exact wellKeyed_iff.2 ⟨hkeys.erase key,
    fun field hfield => hvalues field ((Keyed.erase_sublist key doc).mem hfield)⟩

theorem WellKeyed.get?_erase (h : doc.WellKeyed) (key : String) : (doc.erase key).get? key = none :=
  Keyed.lookup_erase_self (wellKeyed_iff.1 h).1 key

end Document

/-! ### Paths -/

namespace Path

theorem wellKeyed_get {doc : Document} {path : Path} {value : Value} (h : doc.WellKeyed)
    (hget : get doc path = some value) : value.WellKeyed := by
  induction path generalizing doc with
  | nil => simp [get] at hget
  | cons key rest ih =>
    cases rest with
    | nil => exact h.get hget
    | cons next rest =>
      rw [get] at hget
      · split at hget
        · next sub hsub => exact ih (h.get hsub) hget
        · cases hget
      · simp

theorem wellKeyed_set {doc : Document} {value : Value} (path : Path) (h : doc.WellKeyed)
    (hvalue : value.WellKeyed) : (set doc path value).WellKeyed := by
  induction path generalizing doc with
  | nil => exact h
  | cons key rest ih =>
    cases rest with
    | nil => exact h.put key hvalue
    | cons next rest =>
      rw [set]
      · refine h.put key (ih ?_)
        split
        · next sub hsub => exact h.get hsub
        · exact Document.wellKeyed_nil
      · simp

theorem wellKeyed_update {f : Value → Option Value} {doc : Document} (path : Path)
    (hf : ∀ value new, value.WellKeyed → f value = some new → new.WellKeyed) (h : doc.WellKeyed) :
    (update f doc path).WellKeyed := by
  induction path generalizing doc with
  | nil => exact h
  | cons key rest ih =>
    cases rest with
    | nil =>
      rw [update]
      split
      · exact h
      · next value hvalue =>
        split
        · next new hnew => exact h.put key (hf value new (h.get hvalue) hnew)
        · exact h.erase key
    | cons next rest =>
      rw [update]
      · split
        · next sub hsub => exact h.put key (ih (h.get hsub))
        · next items hitems =>
          refine h.put key (Value.wellKeyed_array_iff.2 ?_)
          rw [List.forall_mem_map]
          intro item hitem
          have hitem := Value.wellKeyed_array_iff.1 (h.get hitems) item hitem
          split
          · exact ih hitem
          · exact hitem
        · exact h
      · simp

theorem wellKeyed_remove {doc : Document} (path : Path) (h : doc.WellKeyed) :
    (remove doc path).WellKeyed := wellKeyed_update path (by simp) h

end Path

end DocQuery
