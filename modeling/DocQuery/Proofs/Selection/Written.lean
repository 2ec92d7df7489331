import DocQuery.Proofs.Outcome
import DocQuery.Proofs.Selection.Shapes
import DocQuery.Proofs.Selection.Tokens

/-!
# What a text writes

A selection that was read from a text is well formed (`wellFormed_read`): its keys can be written, none
stands twice in a group, a group is closed only if something is in it, and every marker is the one that
the text was read with.  In particular it has the shape `written` (`fits_read`).
-/

namespace DocQuery.Selection

/-- The shape of a selection that can be written as it is. -/
def spelled (m : Int32) : Shape :=
  ⟨IsKey, fun entries => entries ≠ [] ∧ Keyed.Distinct entries, fun n => n = m⟩

/-- A selection that can be written as it is: at every level its keys are distinct and made of key
characters with no empty part, no group is empty and every marker is `m`. -/
def WellFormed (m : Int32) (tree : Selection) : Prop := Keyed.Distinct tree ∧ Fits (spelled m) tree

theorem kept_spelled (m : Int32) : (spelled m).Kept where
  adjust key f tree h := ⟨List.ne_nil_of_mem (Keyed.self_mem_adjust key f tree), h.2.adjust key f⟩
  single key node := ⟨by simp, by simp [Keyed.Distinct, Keyed.keys]⟩

theorem isKeyChar_dollar : isKeyChar '$' = false := by decide

/-- The name of an operator cannot be written as a key. -/
theorem IsKey.writtenKey {name : String} (h : IsKey name) : WrittenKey name := by
  refine fun part hpart => ⟨h.2 part hpart, ?_⟩
  rintro rfl
  have hdollar := h.1 '$' ((Path.mem_ofText hpart).2 '$' (by decide))
  rw [isKeyChar_dollar] at hdollar
  cases hdollar

theorem spelled_implies_written (m : Int32) : (spelled m).Implies (written m) where
  key _ h := h.writtenKey
  group _ h := h.1
  marker _ h := h

section Read

variable {m : Int32} {tree result : Selection}

theorem wellFormed_nil (m : Int32) : WellFormed m [] := ⟨List.nodup_nil, fits_nil _⟩

theorem wellFormed_group (h : WellFormed m tree) (hne : tree ≠ []) :
    (Node.group tree).Has (spelled m) :=
  has_group_iff.2 ⟨⟨hne, h.1⟩, h.2⟩

theorem wellFormed_mergeEntry {key : String} {node : Node} (h : WellFormed m tree) (hkey : IsKey key)
    (hnode : node.Has (spelled m)) : WellFormed m (mergeEntry tree key node) := by
  constructor
  · rw [mergeEntry_eq]
    exact h.1.adjust _ _
  · have hunion : ∀ existing : Node, existing.Has (spelled m) → (existing.union node).Has (spelled m) :=
      fun existing h => has_union (kept_spelled m) node existing h hnode
    exact fits_mergeEntry hunion h.2 hkey hnode

/-- What is being read stays well formed, and so do the groups that are open around it. -/
theorem wellFormed_build {stack : List (Selection × String)} {list : List Token}
    (hlist : ∀ name, Token.key name ∈ list → IsKey name)
    (hstack : ∀ level ∈ stack, WellFormed m level.1 ∧ IsKey level.2) (htree : WellFormed m tree)
    (h : build m stack tree list = .ok result) : WellFormed m result := by
  fun_induction build m stack tree list with
  | case1 stack tree hempty => cases h; exact htree
  | case2 => cases h
  | case3 => cases h
  | case4 => cases h
  | case5 tree rest outer key stack hne ih =>
    rw [List.forall_mem_cons] at hstack
    have hgroup := wellFormed_group htree (by simpa using hne)
    refine ih ?_ hstack.2 (wellFormed_mergeEntry hstack.1.1 hstack.1.2 hgroup) h
    exact fun name hname => hlist name (List.mem_cons_of_mem _ hname)
  | case6 => cases h
  | case7 stack tree name rest ih =>
    have hkey := hlist name List.mem_cons_self
    refine ih ?_ (List.forall_mem_cons.2 ⟨⟨htree, hkey⟩, hstack⟩) (wellFormed_nil m) h
    exact fun name hname => hlist name (List.mem_cons_of_mem _ (List.mem_cons_of_mem _ hname))
  | case8 stack tree name rest hne ih =>
    have hkey := hlist name List.mem_cons_self
    refine ih ?_ hstack (wellFormed_mergeEntry htree hkey (has_marker_iff.2 rfl)) h
    exact fun name hname => hlist name (List.mem_cons_of_mem _ hname)

/-- A selection that was read is well formed. -/
theorem wellFormed_read {s : String} (h : read m s = .ok tree) : WellFormed m tree := by
  obtain ⟨list, hlist, h⟩ := Outcome.bind_eq_ok_iff.1 h
  exact wellFormed_build (fun _ => isKey_of_mem_tokens hlist) (by simp) (wellFormed_nil m) h

/-- A selection that was read has the shape of one that a text wrote. -/
theorem fits_read {s : String} (h : read m s = .ok tree) : Fits (written m) tree :=
  (wellFormed_read h).2.mono (spelled_implies_written m)

end Read

end DocQuery.Selection
