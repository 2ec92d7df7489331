import DocQuery.Proofs.Path.WellKeyed
import DocQuery.Store.Basic

/-!
# What insertion keeps

A store is made for a catalog and filled by inserting (`Store.BuiltFor`).  Whatever is inserted, each
collection keeps the text index that the catalog gives it (`Store.BuiltFor.indexes`).  If no key stands
twice in the documents that are inserted, then none does in those of the store
(`Store.wellKeyed_insertMany`), also where they get an id.
-/

namespace DocQuery.Store

/-- A store for the collections of a catalog, with whatever was inserted into it. -/
inductive BuiltFor (catalog : Catalog) : Store → Prop
  | new (idBase : ObjectId) : BuiltFor catalog (forCatalog idBase catalog)
  | insertMany {store : Store} (h : BuiltFor catalog store) (name : String) (docs : List Document) :
    BuiltFor catalog (store.insertMany name docs).2

/-- In no document of a store does a key stand twice. -/
def WellKeyed (store : Store) : Prop :=
  ∀ name c, store.find? name = some c → ∀ doc ∈ c.docs, doc.WellKeyed

/-- A collection is there with this text index. -/
def Indexes (store : Store) (name : String) (paths : List String) : Prop :=
  ∃ base, store.find? name = some base ∧ base.textIndex = paths

variable {store : Store} {name : String} {paths : List String}

theorem find?_change_self (store : Store) (name : String)
    (f : StoredCollection → StoredCollection) :
    (store.change name f).find? name = some (f ((store.find? name).getD .empty)) :=
  Keyed.lookup_adjust_self name _ store.collections

theorem find?_change_of_ne {other : String} (h : name ≠ other)
    (f : StoredCollection → StoredCollection) : (store.change other f).find? name = store.find? name :=
  Keyed.lookup_adjust_of_ne h _ store.collections

/-! ### Distinct keys -/

theorem wellKeyed_change {f : StoredCollection → StoredCollection} (h : store.WellKeyed)
    (hf : ∀ c : StoredCollection, (∀ doc ∈ c.docs, doc.WellKeyed) → ∀ doc ∈ (f c).docs, doc.WellKeyed)
    (name : String) : (store.change name f).WellKeyed := by
  intro other c hc
  by_cases hname : other = name
  · subst hname
    obtain rfl := Option.some.inj ((find?_change_self store other f).symm.trans hc)
    refine hf _ ?_
    cases hfound : store.find? other with
    | none => simp [StoredCollection.empty]
    | some found => exact h other found hfound
  · rw [find?_change_of_ne hname] at hc
    exact h other c hc

theorem wellKeyed_setTextIndex (h : store.WellKeyed) (name : String) (paths : List String) :
    (store.setTextIndex name paths).WellKeyed := by
  refine wellKeyed_change h ?_ name
  intro c hdocs
  exact hdocs

theorem wellKeyed_forCatalog (idBase : ObjectId) (catalog : Catalog) :
    (forCatalog idBase catalog).WellKeyed := by
  refine List.foldlRecOn catalog _ ?_ ?_
  · intro name c hc
    cases hc
  · intro store h entry _
    exact wellKeyed_setTextIndex h entry.1 entry.2.textIndex

theorem wellKeyed_insert {doc : Document} (h : store.WellKeyed) (hdoc : doc.WellKeyed) (name : String) :
    (store.insert name doc).2.WellKeyed := by
  have happend : ∀ (store : Store) (new : Document), store.WellKeyed → new.WellKeyed →
      (store.change name fun c => { c with docs := c.docs ++ [new] }).WellKeyed := by
    intro store new h hnew
    refine wellKeyed_change h ?_ name
    intro c hdocs
    exact List.forall_mem_append.2 ⟨hdocs, List.forall_mem_singleton.2 hnew⟩
  unfold insert
  split
  · exact happend store doc h hdoc
  · next hid =>
    refine happend { store with assigned := store.assigned + 1 } _ h ?_
    obtain ⟨hkeys, hvalues⟩ := Document.wellKeyed_iff.1 hdoc
    have hnew : "_id" ∉ Keyed.keys doc := Keyed.lookup_eq_none_iff.1 hid
    refine Document.wellKeyed_iff.2 ⟨?_, ?_⟩
    · exact List.nodup_cons.2 ⟨hnew, hkeys⟩
    · exact List.forall_mem_cons.2 ⟨trivial, hvalues⟩

/-- Documents with distinct keys leave a store like that, also where they get an id. -/
theorem wellKeyed_insertMany {docs : List Document} (h : store.WellKeyed)
    (hdocs : ∀ doc ∈ docs, doc.WellKeyed) (name : String) :
    (store.insertMany name docs).2.WellKeyed := by
  induction docs generalizing store with
  | nil => exact wellKeyed_change h (fun _ hdocs => hdocs) name
  | cons doc rest ih =>
    rw [List.forall_mem_cons] at hdocs
    exact ih (wellKeyed_insert h hdocs.1 name) hdocs.2

/-! ### Text indexes -/

theorem Indexes.change (h : store.Indexes name paths) (other : String)
    {f : StoredCollection → StoredCollection} (hf : ∀ c, (f c).textIndex = c.textIndex) :
    (store.change other f).Indexes name paths := by
  obtain ⟨base, hbase, rfl⟩ := h
  by_cases hname : name = other
  · subst hname
    exact ⟨_, find?_change_self store name f, by rw [hf, hbase]; rfl⟩
  · exact ⟨base, (find?_change_of_ne hname f).trans hbase, rfl⟩

theorem Indexes.insert (h : store.Indexes name paths) (other : String) (doc : Document) :
    (store.insert other doc).2.Indexes name paths := by
  unfold Store.insert
  split
  · exact h.change other fun _ => rfl
  · have hassigned : Indexes { store with assigned := store.assigned + 1 } name paths := h
    exact hassigned.change other fun _ => rfl

theorem Indexes.insertMany (h : store.Indexes name paths) (other : String) (docs : List Document) :
    (store.insertMany other docs).2.Indexes name paths := by
  induction docs generalizing store with
  | nil => exact h.change other fun _ => rfl
  | cons doc rest ih => exact ih (h.insert other doc)

/-- The collections of a catalog with distinct names are there, each with its own index. -/
theorem indexes_setTextIndexes {catalog : Catalog} (hdistinct : Keyed.Distinct catalog)
    {collection : Collection} (h : (name, collection) ∈ catalog) (store : Store) :
    (catalog.foldl (fun store (name, c) => store.setTextIndex name c.textIndex) store).Indexes name
      collection.textIndex := by
  induction catalog generalizing store with
  | nil => cases h
  | cons entry rest ih =>
    obtain ⟨hnew, hrest⟩ := List.nodup_cons.1 hdistinct
    rcases List.mem_cons.1 h with rfl | h
    · have hset : (store.setTextIndex name collection.textIndex).Indexes name collection.textIndex :=
        ⟨_, find?_change_self store name _, rfl⟩
      rw [List.foldl_cons]
      refine List.foldlRecOn (motive := (Indexes · name collection.textIndex)) rest _
        hset ?_
      rintro store ⟨base, hbase, hindex⟩ other hother
      have hne : name ≠ other.1 := fun e => hnew (e ▸ List.mem_map.2 ⟨other, hother, rfl⟩)
      exact ⟨base, (find?_change_of_ne hne _).trans hbase, hindex⟩
    · exact ih hrest h _

theorem BuiltFor.indexes {catalog : Catalog} (hdistinct : Keyed.Distinct catalog)
    (h : store.BuiltFor catalog) {collection : Collection}
    (hcollection : catalog.find? name = some collection) :
    store.Indexes name collection.textIndex := by
  induction h with
  | new idBase => exact indexes_setTextIndexes hdistinct (Keyed.mem_of_lookup hcollection) _
  | insertMany _ other docs ih => exact ih.insertMany other docs

end DocQuery.Store
