import DocQuery.Proofs.Query.Requests
import DocQuery.Proofs.Selection.Thinned

/-!
# What is asked of the joins

The joins of a selection leave nothing out: for each leaf that goes on behind a first reference there is
a join at the reference that covers the rest of it (`Join.asked_plan`).  Stripping the joins takes away
from each of them exactly what its own collection protects (`Compiler.strippedFrom_of_strip`).
-/

namespace DocQuery

open Selection

namespace Join

variable {c : Collection} {field rest : Path}

/-- **Joins leave nothing out.**  What is selected behind a first reference is asked of the join there. -/
theorem asked_plan {m : Int32} {selection : Selection} (hselection : Fits (written m) selection)
    (hfield : c.IsFirstReference field) (hne : field ≠ []) (hrest : rest ≠ [])
    (hleaf : field ++ rest ∈ leaves selection) : Asked (plan c selection) field rest := by
  have hplain : ∀ key ∈ field, Path.Plain key :=
    fun key hkey => plain_of_mem_leaves hleaf key (List.mem_append_left rest hkey)
  rw [← Path.ofText_text hne hplain,
    asked_plan_iff (hselection.mono (written_implies_named m))]
  exact ⟨rest, List.mem_filterMap.2 ⟨_, hleaf, Collection.split?_append hfield hne hrest⟩,
    rest.prefix_refl⟩

end Join

/-! ### Stripping -/

/-- A collection protects a field of its documents. -/
def Catalog.Protects (catalog : Catalog) (name : String) (field : Path) : Prop :=
  ∃ target hidden, catalog.find? name = some target ∧ target.protectedSelection = .ok hidden ∧
    field ∈ leaves hidden

namespace Compiler

variable {catalog : Catalog}

/-- A join that was stripped asks for the same as before, apart from what its collection protects. -/
structure StrippedFrom (catalog : Catalog) (join new : Join) : Prop where
  field : new.field = join.field
  collection : new.collection = join.collection
  many : new.many = join.many
  mem_leaves_iff : ∀ leaf, leaf ∈ leaves new.selection ↔ leaf ∈ leaves join.selection ∧
    ∀ taken, catalog.Protects join.collection taken → Path.Apart leaf taken

theorem strippedFrom_of_strip {join new : Join} (h : strip catalog join = .ok new) :
    StrippedFrom catalog join new := by
  unfold strip at h
  cases hfind : catalog.find? join.collection with
  | none =>
    rw [hfind] at h
    obtain rfl := Except.ok.inj h
    refine ⟨rfl, rfl, rfl, fun leaf => (and_iff_left ?_).symm⟩
    rintro taken ⟨target, hidden, htarget, -⟩
    rw [hfind] at htarget
    cases htarget
  | some target =>
    rw [hfind] at h
    obtain ⟨hidden, hhidden, rfl⟩ := Outcome.map_eq_ok_iff.1 h
    have hprotects : ∀ taken, catalog.Protects join.collection taken ↔ taken ∈ leaves hidden := by
      intro taken
      constructor
      · rintro ⟨other, theirs, hother, htheirs, htaken⟩
        obtain rfl := Option.some.inj (hfind.symm.trans hother)
        obtain rfl := Except.ok.inj (hhidden.symm.trans htheirs)
        exact htaken
      · exact fun htaken => ⟨target, hidden, hfind, hhidden, htaken⟩
    refine ⟨rfl, rfl, rfl, fun leaf => ?_⟩
    simp only [hprotects]
    by_cases hempty : hidden.isEmpty = true
    · rw [if_pos hempty]
      obtain rfl := List.isEmpty_iff.1 hempty
      simp [leaves]
    · rw [if_neg hempty]
      exact mem_leaves_without_iff (Collection.fits_protectedSelection hhidden)

/-- Whether a join can be stripped depends on its collection only. -/
theorem exists_strip_congr {join other : Join} (h : join.collection = other.collection) :
    (∃ new, strip catalog join = .ok new) ↔ ∃ new, strip catalog other = .ok new := by
  simp only [strip, h]
  cases catalog.find? other.collection with
  | none => simp
  | some target => simp [Outcome.map_eq_ok_iff]

theorem stripJoins_eq_mapM (joins : List Join) :
    stripJoins catalog joins = joins.mapM (strip catalog) := by
  induction joins with
  | nil => rfl
  | cons join rest ih => rw [stripJoins_cons, List.mapM_cons, ih]; rfl

end Compiler

end DocQuery
