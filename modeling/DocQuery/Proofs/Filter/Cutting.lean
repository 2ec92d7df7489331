import DocQuery.Condition
import Mathlib.Data.List.TakeWhile

/-!
# Cutting texts into terms

A term is written as its operand, with its operator in braces in front if it has one, and a list of terms as
one text (`Condition.joined`).  `Condition.WellCut` says which lists of terms come from texts.  Cutting and
joining undo each other between texts and such lists (`Condition.termsOf_eq_iff`), and so nothing of a text
is lost when it is read (`Condition.read_eq_iff_joined`).

Behind an operand the rest of a text is empty or begins with a brace.  `Condition.Continues` are the lists
of terms that such a rest is cut into; only the first term of a text can be different from those.
-/

namespace DocQuery.Condition

/-- The mark of an alternative. -/
def mark : String := "\x7b$or\x7d"

/-- A term as it is written. -/
def Term.text (term : Term) : String :=
  match term.operator with
  | some operator => "\x7b" ++ operator ++ "\x7d" ++ term.operand
  | none => term.operand

/-- An operand without an operator, behind a brace that is never closed. -/
def Term.IsUnclosed (term : Term) : Prop :=
  term.operator = none ∧ term.operand.toList.head? = some '\x7b' ∧ '\x7d' ∉ term.operand.toList

/-- Terms written one after the other. -/
def joined (terms : List Term) : String := String.join (terms.map Term.text)

/-- What the terms of a text look like: no closing brace is in an operator; no opening brace is in an
operand, unless it is the last one and unclosed; and a term without operator is not empty and comes first,
unless it is unclosed. -/
structure WellCut (terms : List Term) : Prop where
  operators : ∀ term ∈ terms, ∀ operator ∈ term.operator, '\x7d' ∉ operator.toList
  operands : ∀ term ∈ terms.dropLast, '\x7b' ∉ term.operand.toList
  last : ∀ term ∈ terms.getLast?, '\x7b' ∈ term.operand.toList → term.IsUnclosed
  nonempty : ∀ term ∈ terms, term.operator = none → term.operand ≠ ""
  first : ∀ term ∈ terms.tail, term.operator = none → term.IsUnclosed

variable {cs rest operator tail : List Char} {term : Term} {terms : List Term}

/-! ### Braces -/

theorem splitOperator_eq_none_iff : splitOperator cs = none ↔ '\x7d' ∉ cs := by
  fun_induction splitOperator cs with
  | case1 => simp
  | case2 rest => simp
  | case3 c rest hc ih => simpa [ih] using fun _ => Ne.symm hc

theorem splitOperator_eq_some_iff :
    splitOperator cs = some (operator, tail) ↔ '\x7d' ∉ operator ∧ cs = operator ++ '\x7d' :: tail := by
  fun_induction splitOperator cs generalizing operator with
  | case1 => simp
  | case2 rest =>
    cases operator with
    | nil => simp
    | cons c operator => simp +contextual [eq_comm]
  | case3 c rest hc ih =>
    cases operator with
    | nil => simpa using fun h => absurd h hc
    | cons d operator =>
      rw [Option.map_eq_some_iff, List.mem_cons, not_or, List.cons_append, List.cons.injEq]
      constructor
      · rintro ⟨⟨front, behind⟩, hsplit, heq⟩
        obtain ⟨hfront, rfl⟩ := Prod.mk.inj heq
        obtain ⟨rfl, rfl⟩ := List.cons.inj hfront
        obtain ⟨hnot, rfl⟩ := ih.1 hsplit
        exact ⟨⟨Ne.symm hc, hnot⟩, rfl, rfl⟩
      · rintro ⟨⟨-, hnot⟩, rfl, rfl⟩
        exact ⟨_, ih.2 ⟨hnot, rfl⟩, rfl⟩

theorem stripMark_eq_some_iff : stripMark cs = some rest ↔ cs = mark.toList ++ rest := by
  unfold stripMark
  split
  · next behind =>
    simp [mark]
  · next hne =>
    simp only [reduceCtorEq, false_iff]
    exact hne rest

/-- An operand ends where the next brace opens. -/
theorem untilBrace_append (hcs : '\x7b' ∉ cs) (hrest : ∀ c ∈ rest.head?, c = '\x7b') :
    untilBrace (cs ++ rest) = cs ∧ fromBrace (cs ++ rest) = rest := by
  have hall : ∀ c ∈ cs, (c != '\x7b') = true := fun c hc => bne_iff_ne.2 fun h => hcs (h ▸ hc)
  rw [untilBrace, fromBrace, List.takeWhile_append_of_pos hall, List.dropWhile_append_of_pos hall]
  cases rest with
  | nil => simp
  | cons c rest => simp [hrest c rfl]

theorem untilBrace_of_notMem (hcs : '\x7b' ∉ cs) : untilBrace cs = cs ∧ fromBrace cs = [] := by
  have hcut : untilBrace (cs ++ []) = cs ∧ fromBrace (cs ++ []) = [] := untilBrace_append hcs (by simp)
  rwa [List.append_nil] at hcut

theorem notMem_untilBrace (cs : List Char) : '\x7b' ∉ untilBrace cs := fun h =>
  absurd (List.mem_takeWhile_imp h) (by decide)

theorem head?_fromBrace (cs : List Char) : ∀ c ∈ (fromBrace cs).head?, c = '\x7b' := by
  intro c hc
  have hnot := List.head?_dropWhile_not (· != '\x7b') cs
  rw [fromBrace, Option.mem_def] at hc
  rw [hc] at hnot
  simpa using hnot

/-! ### Behind an operand -/

/-- The terms that can stand behind an operand: they have operators, but for a last one that is unclosed. -/
inductive Continues : List Term → Prop
  | nil : Continues []
  | unclosed {term : Term} (h : term.IsUnclosed) : Continues [term]
  | operator {operator operand : String} {rest : List Term} (hoperator : '\x7d' ∉ operator.toList)
    (hoperand : '\x7b' ∉ operand.toList) (hrest : Continues rest) :
    Continues (⟨some operator, operand⟩ :: rest)

theorem toList_joined_cons (term : Term) (terms : List Term) :
    (joined (term :: terms)).toList = term.text.toList ++ (joined terms).toList := by
  rw [joined, List.map_cons, String.join_cons, String.toList_append]
  rfl

theorem toList_text_operator (operator operand : String) : (Term.text ⟨some operator, operand⟩).toList =
    '\x7b' :: (operator.toList ++ '\x7d' :: operand.toList) := by
  simp [Term.text]

theorem Continues.head? (h : Continues terms) : ∀ c ∈ (joined terms).toList.head?, c = '\x7b' := by
  cases h with
  | nil => simp [joined]
  | unclosed h =>
    obtain ⟨hnone, hhead, -⟩ := h
    rw [toList_joined_cons, Term.text, hnone]
    simp [joined, hhead]
  | operator =>
    rw [toList_joined_cons, toList_text_operator]
    simp

theorem continues_termsOf (h : ∀ c ∈ cs.head?, c = '\x7b') : Continues (termsOf cs) := by
  fun_induction termsOf cs with
  | case1 => exact .nil
  | case2 rest hsplit =>
    rw [splitOperator_eq_none_iff] at hsplit
    exact .unclosed ⟨rfl, by simp, by simpa using hsplit⟩
  | case3 rest operator tail hsplit _ _ ih =>
    obtain ⟨hoperator, rfl⟩ := splitOperator_eq_some_iff.1 hsplit
    refine .operator ?_ ?_ (ih (head?_fromBrace tail))
    · rwa [String.toList_ofList]
    · rw [String.toList_ofList]
      exact notMem_untilBrace tail
  | case4 c rest hc _ ih => exact absurd (h c rfl) hc

/-- Cutting loses no character. -/
theorem toList_joined_termsOf (cs : List Char) : (joined (termsOf cs)).toList = cs := by
  have hparts : ∀ cs, untilBrace cs ++ fromBrace cs = cs := fun cs => List.takeWhile_append_dropWhile
  fun_induction termsOf cs with
  | case1 => simp [joined]
  | case2 rest hsplit => simp [joined, Term.text]
  | case3 rest operator tail hsplit _ _ ih =>
    obtain ⟨-, rfl⟩ := splitOperator_eq_some_iff.1 hsplit
    simp [toList_joined_cons, toList_text_operator, ih, hparts]
  | case4 c rest hc _ ih => simp [toList_joined_cons, Term.text, ih, hparts]

theorem termsOf_unclosed (h : '\x7d' ∉ cs) :
    termsOf ('\x7b' :: cs) = [⟨none, String.ofList ('\x7b' :: cs)⟩] := by
  rw [← splitOperator_eq_none_iff] at h
  rw [termsOf.eq_def]
  dsimp only
  rw [if_pos rfl]
  split
  · rfl
  · next hsplit => simp [h] at hsplit

theorem termsOf_operator (h : '\x7d' ∉ operator) :
    termsOf ('\x7b' :: (operator ++ '\x7d' :: tail)) =
      ⟨some (String.ofList operator), String.ofList (untilBrace tail)⟩ :: termsOf (fromBrace tail) := by
  have hsome := splitOperator_eq_some_iff.2 ⟨h, Eq.refl (operator ++ '\x7d' :: tail)⟩
  rw [termsOf.eq_def]
  dsimp only
  rw [if_pos rfl]
  split
  · next hsplit => simp [hsome] at hsplit
  · next hsplit =>
    rw [hsome] at hsplit
    cases hsplit
    rfl

theorem termsOf_text {c : Char} (h : c ≠ '\x7b') :
    termsOf (c :: cs) = ⟨none, String.ofList (c :: untilBrace cs)⟩ :: termsOf (fromBrace cs) := by
  rw [termsOf.eq_def]
  exact if_neg h

/-- What is written behind an operand is cut as it was written. -/
theorem Continues.termsOf_joined (h : Continues terms) : termsOf (joined terms).toList = terms := by
  induction h with
  | nil => simp [joined, termsOf]
  | @unclosed term h =>
    obtain ⟨operator, operand⟩ := term
    obtain ⟨rfl, hhead, hclosed⟩ := h
    obtain ⟨cs, hcs⟩ := List.head?_eq_some_iff.1 hhead
    dsimp only at hcs hclosed
    rw [hcs] at hclosed
    rw [toList_joined_cons, Term.text]
    dsimp only
    rw [hcs, joined, List.map_nil, String.join_nil, String.toList_empty, List.append_nil,
      termsOf_unclosed (List.not_mem_of_not_mem_cons hclosed), ← hcs, String.ofList_toList]
  | @operator operator operand rest hoperator hoperand hrest ih =>
    obtain ⟨huntil, hfrom⟩ := untilBrace_append hoperand hrest.head?
    rw [toList_joined_cons, toList_text_operator, List.cons_append, List.append_assoc, List.cons_append,
      termsOf_operator hoperator, huntil, hfrom, ih, String.ofList_toList, String.ofList_toList]

/-! ### The whole text -/

theorem Term.IsUnclosed.mem (h : term.IsUnclosed) : '\x7b' ∈ term.operand.toList :=
  List.mem_of_head? h.2.1

theorem Continues.isUnclosed (h : Continues terms) :
    ∀ term ∈ terms, term.operator = none → term.IsUnclosed := by
  induction h with
  | nil => simp
  | unclosed h => exact List.forall_mem_singleton.2 fun _ => h
  | operator _ _ _ ih => exact List.forall_mem_cons.2 ⟨fun hnone => (nomatch hnone), ih⟩

namespace WellCut

variable {others : List Term}

theorem cons (h : WellCut others) (hothers : ∀ other ∈ others, other.operator = none → other.IsUnclosed)
    (hoperator : ∀ operator ∈ term.operator, '\x7d' ∉ operator.toList)
    (hoperand : '\x7b' ∉ term.operand.toList) (hne : term.operator = none → term.operand ≠ "") :
    WellCut (term :: others) where
  operators := List.forall_mem_cons.2 ⟨hoperator, h.operators⟩
  operands := by
    cases others with
    | nil => simp
    | cons other others => exact List.forall_mem_cons.2 ⟨hoperand, h.operands⟩
  last := by
    cases others with
    | nil => simp [hoperand]
    | cons other others => exact h.last
  nonempty := List.forall_mem_cons.2 ⟨hne, h.nonempty⟩
  first := hothers

theorem of_cons (h : WellCut (term :: others)) : WellCut others where
  operators := (List.forall_mem_cons.1 h.operators).2
  operands := by
    cases others with
    | nil => simp
    | cons other others => exact (List.forall_mem_cons.1 h.operands).2
  last := by
    cases others with
    | nil => simp
    | cons other others => exact h.last
  nonempty := (List.forall_mem_cons.1 h.nonempty).2
  first other hother := h.first other (List.mem_of_mem_tail hother)

/-- Only a last operand can have an opening brace. -/
theorem notMem_operand (h : WellCut (term :: others)) (hopen : ¬term.IsUnclosed ∨ others ≠ []) :
    '\x7b' ∉ term.operand.toList := by
  cases others with
  | nil => exact fun hmem => hopen.resolve_right (fun h => h rfl) (h.last term rfl hmem)
  | cons other others => exact (List.forall_mem_cons.1 h.operands).1

theorem continues (h : WellCut terms) (hterms : ∀ term ∈ terms, term.operator = none → term.IsUnclosed) :
    Continues terms := by
  induction terms with
  | nil => exact .nil
  | cons term others ih =>
    obtain ⟨operator, operand⟩ := term
    rw [List.forall_mem_cons] at hterms
    cases operator with
    | none =>
      have hunclosed := hterms.1 rfl
      obtain rfl : others = [] := by
        by_contra hne
        exact h.notMem_operand (.inr hne) hunclosed.mem
      exact .unclosed hunclosed
    | some operator =>
      exact .operator ((List.forall_mem_cons.1 h.operators).1 operator rfl)
        (h.notMem_operand (.inl fun hunclosed => (nomatch hunclosed.1))) (ih h.of_cons hterms.2)

end WellCut

theorem Continues.wellCut (h : Continues terms) : WellCut terms := by
  induction h with
  | nil => constructor <;> simp
  | @unclosed term h =>
    have hne : term.operand ≠ "" := fun hempty => by simpa [hempty] using h.mem
    constructor <;> simp [h, h.1, hne]
  | operator hoperator hoperand hrest ih =>
    exact ih.cons hrest.isUnclosed (by simpa using hoperator) hoperand (fun hnone => (nomatch hnone))

theorem wellCut_termsOf (cs : List Char) : WellCut (termsOf cs) := by
  cases cs with
  | nil => exact (continues_termsOf (by simp)).wellCut
  | cons c rest =>
    by_cases hc : c = '\x7b'
    · exact (continues_termsOf (by simpa using hc)).wellCut
    · have hrest := continues_termsOf (head?_fromBrace rest)
      rw [termsOf_text hc]
      refine hrest.wellCut.cons hrest.isUnclosed (by simp) ?_ ?_
      · simpa [Ne.symm hc] using notMem_untilBrace rest
      · simp

/-- Joining loses no cut. -/
theorem termsOf_joined (h : WellCut terms) : termsOf (joined terms).toList = terms := by
  cases terms with
  | nil => exact Continues.nil.termsOf_joined
  | cons term others =>
    obtain ⟨operator, operand⟩ := term
    by_cases hfirst : operator = none ∧ ¬(Term.mk operator operand).IsUnclosed
    · obtain ⟨rfl, hopen⟩ := hfirst
      have hothers := h.of_cons.continues h.first
      obtain ⟨c, cs, hcs⟩ := List.exists_cons_of_ne_nil (l := operand.toList) <|
        mt String.toList_eq_nil_iff.1 ((List.forall_mem_cons.1 h.nonempty).1 rfl)
      have hbrace : '\x7b' ∉ operand.toList := h.notMem_operand (.inl hopen)
      rw [hcs, List.mem_cons, not_or] at hbrace
      obtain ⟨huntil, hfrom⟩ := untilBrace_append hbrace.2 hothers.head?
      rw [toList_joined_cons, Term.text]
      dsimp only
      rw [hcs, List.cons_append, termsOf_text (Ne.symm hbrace.1), huntil, hfrom, hothers.termsOf_joined,
        ← hcs, String.ofList_toList]
    · refine (h.continues (List.forall_mem_cons.2 ⟨fun hnone => ?_, h.first⟩)).termsOf_joined
      by_contra hopen
      exact hfirst ⟨hnone, hopen⟩

/-- Cutting and joining undo each other. -/
theorem termsOf_eq_iff : termsOf cs = terms ↔ WellCut terms ∧ (joined terms).toList = cs := by
  constructor
  · rintro rfl
    exact ⟨wellCut_termsOf cs, toList_joined_termsOf cs⟩
  · rintro ⟨h, rfl⟩
    exact termsOf_joined h

theorem text_ne_empty (h : WellCut terms) : ∀ term ∈ terms, term.text ≠ "" := by
  intro term hterm
  obtain ⟨operator, operand⟩ := term
  cases operator with
  | none => exact h.nonempty _ hterm rfl
  | some operator =>
    rw [ne_eq, ← String.toList_eq_nil_iff, toList_text_operator]
    exact List.cons_ne_nil _ _

/-- Every term takes a character, so a text is cut no more often than it has characters. -/
theorem length_termsOf_le (cs : List Char) : (termsOf cs).length ≤ cs.length := by
  have htexts : ∀ terms : List Term, (∀ term ∈ terms, term.text ≠ "") →
      terms.length ≤ (joined terms).toList.length := by
    intro terms
    induction terms with
    | nil => simp
    | cons term rest ih =>
      intro h
      rw [List.forall_mem_cons] at h
      have hterm : 0 < term.text.toList.length :=
        List.length_pos_iff.2 (mt String.toList_eq_nil_iff.1 h.1)
      rw [toList_joined_cons, List.length_append, List.length_cons]
      have hrest := ih h.2
      omega
  have hle := htexts (termsOf cs) (text_ne_empty (wellCut_termsOf cs))
  rwa [toList_joined_termsOf] at hle

theorem terms_read (s : String) : (read s).terms = termsOf (read s).raw.toList := by
  rw [read]
  split
  · rw [String.toList_ofList]
  · rfl

/-- A text that begins with the mark is an alternative, and what stands behind the mark is read. -/
theorem marked_iff (s raw : String) (isAlternative : Bool) :
    (read s).isAlternative = isAlternative ∧ (read s).raw = raw ↔
      s = (if isAlternative then mark else "") ++ raw ∧
        (isAlternative = false → ¬mark.toList <+: s.toList) := by
  cases hmark : stripMark s.toList with
  | none =>
    have hnot : ∀ rest, s.toList ≠ mark.toList ++ rest := fun rest hrest => by
      simp [stripMark_eq_some_iff.2 hrest] at hmark
    have hbegins : ¬mark.toList <+: s.toList := fun ⟨rest, hrest⟩ => hnot rest hrest.symm
    have hread : read s = ⟨false, s, termsOf s.toList⟩ := by rw [read, hmark]
    rw [hread]
    cases isAlternative with
    | false => simp [hbegins]
    | true =>
      refine iff_of_false (by simp) fun h => hnot raw.toList ?_
      rw [h.1, String.toList_append]
      rfl
  | some rest =>
    have hs := stripMark_eq_some_iff.1 hmark
    have hread : read s = ⟨true, String.ofList rest, termsOf rest⟩ := by rw [read, hmark]
    rw [hread]
    cases isAlternative with
    | false => exact iff_of_false (by simp) fun h => h.2 rfl ⟨rest, hs.symm⟩
    | true =>
      simp only [if_true, true_and, reduceCtorEq, false_imp_iff, and_true]
      rw [← String.toList_inj, ← String.toList_inj, String.toList_append, hs, String.toList_ofList]
      exact (List.append_cancel_left_eq _ _ _).symm.to_iff

/-- **Reading and writing conditions undo each other.**  A condition is read from a text if and only if
the text is its raw text, behind the mark of an alternative or not beginning with it, the raw text is
that of its terms, one after the other, and the terms are well cut.  There are no more terms than
characters. -/
theorem read_eq_iff_joined (s : String) (c : Condition) :
    (read s = c ↔ s = (if c.isAlternative then mark else "") ++ c.raw ∧
        (c.isAlternative = false → ¬mark.toList <+: s.toList) ∧
        c.raw = joined c.terms ∧ WellCut c.terms) ∧
      (read s).terms.length ≤ (read s).raw.length := by
  refine ⟨?_, terms_read s ▸ length_termsOf_le _⟩
  obtain ⟨isAlternative, raw, terms⟩ := c
  have hparts : read s = ⟨isAlternative, raw, terms⟩ ↔
      ((read s).isAlternative = isAlternative ∧ (read s).raw = raw) ∧ termsOf raw.toList = terms := by
    have hterms := terms_read s
    constructor
    · intro h
      rw [h] at hterms ⊢
      exact ⟨⟨rfl, rfl⟩, hterms.symm⟩
    · rintro ⟨⟨rfl, rfl⟩, rfl⟩
      rw [← hterms]
  have hraw : termsOf raw.toList = terms ↔ raw = joined terms ∧ WellCut terms := by
    rw [termsOf_eq_iff, String.toList_inj, and_comm, eq_comm]
  rw [hparts, marked_iff, hraw, and_assoc]

end DocQuery.Condition
