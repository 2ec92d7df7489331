import DocQuery.Proofs.Query.Conditions

/-!
# Chained operators

A request text may chain operators, as in the range `{$gte}1{$lte}18`.  Its terms are written one after the
other into one document of operators, and a term takes the place of an earlier one that is written under
the same key.  So a document passes the condition if it passes each term that is not overwritten, taken
alone (`Condition.admits_text_iff`): a text that writes no key twice asks for all of its terms.
-/

namespace DocQuery

open Test

namespace Test

variable {path operator : String} {ops others doc : Document} {relevance : Nat} {value : Value}

/-! ### Documents of operators -/

/-- An operator with its operand is understood in a document of operators, and its test, if it is one of
its own, holds. -/
def Passes (path : String) (ops doc : Document) (relevance : Nat) (field : String × Value) : Prop :=
  ∃ test?, readOperator path ops field.1 field.2 = .ok test? ∧
    ∀ test ∈ test?, test.holds doc relevance = true

theorem readOperators_passes_iff {fields : Document} :
    (∃ tests, readOperators path ops fields = .ok tests ∧
        ∀ test ∈ tests, test.holds doc relevance = true) ↔
      ∀ field ∈ fields, Passes path ops doc relevance field := by
  induction fields with
  | nil => simp [readOperators]
  | cons field rest ih =>
    obtain ⟨operator, operand⟩ := field
    rw [List.forall_mem_cons, ← ih, readOperators]
    simp only [Outcome.bind_eq_ok_iff, Except.ok.injEq, Passes]
    constructor
    · rintro ⟨_, ⟨first, hfirst, others, hothers, rfl⟩, hold⟩
      refine ⟨⟨first, hfirst, fun test ht => hold test ?_⟩, others, hothers, fun test ht => hold test ?_⟩
      · exact List.mem_append_left _ (Option.mem_toList.2 ht)
      · exact List.mem_append_right _ ht
    · rintro ⟨⟨first, hfirst, hold⟩, others, hothers, hold'⟩
      refine ⟨_, ⟨first, hfirst, others, hothers, rfl⟩, fun test ht => ?_⟩
      rcases List.mem_append.1 ht with ht | ht
      · exact hold test (Option.mem_toList.1 ht)
      · exact hold' test ht

/-- A document of operators under a field asks for each of them. -/
theorem admits_operators_iff (hpath : isOperatorKey path = false) (hne : ops ≠ [])
    (hops : ∀ field ∈ ops, isOperatorKey field.1 = true) :
    Admits [(path, .document ops)] doc relevance ↔
      ∀ field ∈ ops, Passes path ops doc relevance field := by
  obtain ⟨first, rest, rfl⟩ := List.exists_cons_of_ne_nil hne
  rw [admits_singleton_iff, readField_of_field hpath, readCondition,
    if_pos (hops first List.mem_cons_self), ← readOperators_passes_iff]
  simp only [Outcome.map_eq_ok_iff]
  constructor
  · rintro ⟨_, ⟨tests, hread, rfl⟩, hold⟩
    exact ⟨tests, hread, ((conjunctive_holds doc relevance).conjunction_iff tests).1 hold⟩
  · rintro ⟨tests, hread, hold⟩
    exact ⟨_, ⟨tests, hread, rfl⟩, ((conjunctive_holds doc relevance).conjunction_iff tests).2 hold⟩

/-- Only a pattern and its options look at the other operators. -/
theorem readOperator_of_ne (hregex : operator ≠ "$regex") (hoptions : operator ≠ "$options") :
    readOperator path ops operator value = readOperator path others operator value := by
  unfold readOperator
  split <;> first | rfl | contradiction

theorem readOperator_congr (hoptions : ops.string? "$options" = others.string? "$options")
    (hregex : ops.contains "$regex" = others.contains "$regex") :
    readOperator path ops operator value = readOperator path others operator value := by
  unfold readOperator
  rw [hoptions, hregex]

end Test

namespace Condition

variable {info : Option FieldInfo} {term : Term} {terms : List Term} {ops : Document}

/-! ### What a term writes -/

/-- The operators with a meaning of their own in requests or in the store. -/
def listed : List String :=
  ["$eq", "$ne", "$gt", "$gte", "$lt", "$lte", "$in", "$nin", "$exists", "$includes"]

/-- The operator of a term, if it has one, is a listed one. -/
def Term.Listed (term : Term) : Prop := ∀ operator ∈ term.operator, operator ∈ listed

instance : DecidablePred Term.Listed := fun term =>
  inferInstanceAs (Decidable (∀ operator ∈ term.operator, operator ∈ listed))

/-- The key under which an operator is written into a document of operators. -/
def keyOf : Option String → String
  | none => "$eq"
  | some "$includes" => "$regex"
  | some operator => operator

abbrev Term.key (term : Term) : String := keyOf term.operator

theorem isOperator_of_listed : ∀ operator ∈ listed, isOperator operator = true := by decide

/-- The key of a listed term is an operator, and not the one for the options of a pattern. -/
theorem Term.Listed.key_spec (h : term.Listed) :
    isOperatorKey term.key = true ∧ term.key ≠ "$options" := by
  have hkeys : ∀ operator ∈ listed,
      isOperatorKey (keyOf (some operator)) = true ∧ keyOf (some operator) ≠ "$options" := by decide
  obtain ⟨operator, operand⟩ := term
  cases operator with
  | none => exact (by decide : isOperatorKey "$eq" = true ∧ "$eq" ≠ "$options")
  | some operator => exact hkeys operator (h operator rfl)

/-- A term writes a value under its key, and the options beside a pattern. -/
theorem exists_putTerm (info : Option FieldInfo) (h : term.Listed) :
    ∃ value, ∀ ops, putTerm info ops term =
      if term.key = "$regex" then (ops.put "$regex" value).put "$options" (.string "i")
      else ops.put term.key value := by
  obtain ⟨operator, operand⟩ := term
  cases operator with
  | none => exact ⟨coerceOrText info operand, fun ops => rfl⟩
  | some operator =>
    have hmem : operator ∈ listed := h operator rfl
    simp only [listed, List.mem_cons, List.not_mem_nil, or_false] at hmem
    rcases hmem with rfl | rfl | rfl | rfl | rfl | rfl | rfl | rfl | rfl | rfl <;>
      exact ⟨_, fun ops => rfl⟩

/-- Writing a term takes the place of what stood under its key.  The options of a pattern need not be
looked at. -/
theorem exists_written (info : Option FieldInfo) (h : term.Listed) :
    ∃ value, ∀ (Q : String × Value → Prop) (ops : Document), (∀ value, Q ("$options", value)) →
      Keyed.Distinct ops → ((∀ field ∈ putTerm info ops term, Q field) ↔
        Q (term.key, value) ∧ ∀ field ∈ ops, field.1 ≠ term.key → Q field) := by
  obtain ⟨value, hput⟩ := exists_putTerm info h
  refine ⟨value, fun Q ops hQ hops => ?_⟩
  rw [hput]
  split
  · next hkey =>
    have hothers : (∀ field ∈ ops.put "$regex" value, field.1 ≠ "$options" → Q field) ↔
        ∀ field ∈ ops.put "$regex" value, Q field := by
      refine forall₂_congr fun field _ => ⟨fun h => ?_, fun h _ => h⟩
      obtain ⟨key, operand⟩ := field
      by_cases hoptions : key = "$options"
      · rw [hoptions]
        exact hQ operand
      · exact h hoptions
    have hdistinct : Keyed.Distinct (ops.put "$regex" value) := hops.adjust _ _
    rw [hkey, Document.put, Keyed.forall_mem_put_iff hdistinct, and_iff_right (hQ _), hothers]
    exact Keyed.forall_mem_put_iff hops
  · exact Keyed.forall_mem_put_iff hops

/-! ### Chains of terms -/

/-- The document of operators that some terms write. -/
def chain (info : Option FieldInfo) (terms : List Term) : Document := terms.foldl (putTerm info) []

/-- The terms that no later one overwrites. -/
def kept : List Term → List Term
  | [] => []
  | term :: rest => if term.key ∈ rest.map Term.key then kept rest else term :: kept rest

theorem kept_of_nodup (h : (terms.map Term.key).Nodup) : kept terms = terms := by
  induction terms with
  | nil => rfl
  | cons term rest ih =>
    rw [List.map_cons, List.nodup_cons] at h
    rw [kept, if_neg h.1, ih h.2]

/-- The keys of a document of operators are distinct, and the options that are set beside a pattern, and
only there, are those of a search without regard to case. -/
structure Chained (ops : Document) : Prop where
  distinct : Keyed.Distinct ops
  options : ops.get? "$options" = (ops.get? "$regex").map fun _ => .string "i"

theorem Chained.nil : Chained [] := ⟨List.nodup_nil, rfl⟩

theorem Chained.putTerm (h : Chained ops) (hterm : term.Listed) :
    Chained (putTerm info ops term) := by
  obtain ⟨value, hput⟩ := exists_putTerm info hterm
  obtain ⟨-, hkey⟩ := hterm.key_spec
  rw [hput]
  split
  · refine ⟨(h.distinct.adjust _ _).adjust _ _, ?_⟩
    rw [Path.get?_put_self, Path.get?_put_of_ne (by decide), Path.get?_put_self]
    rfl
  · next hregex =>
    refine ⟨h.distinct.adjust _ _, ?_⟩
    rw [Path.get?_put_of_ne (Ne.symm hkey), Path.get?_put_of_ne (Ne.symm hregex), h.options]

theorem chained_chain (h : ∀ term ∈ terms, term.Listed) : Chained (chain info terms) :=
  List.foldlRecOn terms _ Chained.nil fun _ hops term hterm => hops.putTerm (h term hterm)

/-- What is in the document that some terms write, besides the options of patterns: what the terms write
that are not overwritten. -/
theorem forall_mem_chain_iff {Q : String × Value → Prop} (hQ : ∀ value, Q ("$options", value))
    (h : ∀ term ∈ terms, term.Listed) :
    (∀ field ∈ chain info terms, Q field) ↔
      ∀ term ∈ kept terms, ∀ field ∈ chain info [term], Q field := by
  -- from any document of operators on, of whose fields those stay that no term overwrites
  have hrun : ∀ ops, Chained ops →
      ((∀ field ∈ terms.foldl (putTerm info) ops, Q field) ↔
        (∀ field ∈ ops, field.1 ∉ terms.map Term.key → Q field) ∧
          ∀ term ∈ kept terms, ∀ field ∈ chain info [term], Q field) := by
    induction terms with
    | nil => intro ops _; simp [kept]
    | cons term rest ih =>
      intro ops hops
      rw [List.forall_mem_cons] at h
      obtain ⟨value, hvalue⟩ := exists_written info h.1
      have halone : (∀ field ∈ chain info [term], Q field) ↔ Q (term.key, value) :=
        (hvalue Q [] hQ List.nodup_nil).trans (and_iff_left (List.forall_mem_nil _))
      rw [List.foldl_cons, ih h.2 _ (hops.putTerm h.1),
        hvalue (fun field => field.1 ∉ rest.map Term.key → Q field) ops (fun value _ => hQ value)
          hops.distinct, kept]
      simp only [List.map_cons, List.mem_cons, not_or, and_imp]
      split
      · next hmem => simp [hmem]
      · next hmem =>
        rw [List.forall_mem_cons, halone]
        simp only [hmem, not_false_eq_true, true_imp_iff]
        tauto
  exact (hrun [] .nil).trans (and_iff_right (List.forall_mem_nil _))

theorem mem_of_mem_kept (h : term ∈ kept terms) : term ∈ terms := by
  induction terms with
  | nil => cases h
  | cons first rest ih =>
    rw [kept] at h
    split at h
    · exact List.mem_cons_of_mem _ (ih h)
    · exact (List.mem_cons.1 h).elim (fun e => e ▸ List.mem_cons_self) fun h => List.mem_cons_of_mem _ (ih h)

theorem isOperatorKey_of_mem_chain (h : ∀ term ∈ terms, term.Listed) :
    ∀ field ∈ chain info terms, isOperatorKey field.1 = true := by
  have hoptions : isOperatorKey "$options" = true := by decide
  refine (forall_mem_chain_iff (fun _ => hoptions) h).2 fun term hterm => ?_
  have hlisted := h term (mem_of_mem_kept hterm)
  obtain ⟨value, hvalue⟩ := exists_written info hlisted
  exact (hvalue (fun field => isOperatorKey field.1 = true) [] (fun _ => hoptions) List.nodup_nil).2
    ⟨hlisted.key_spec.1, List.forall_mem_nil _⟩

theorem chain_ne_nil (hne : terms ≠ []) (h : ∀ term ∈ terms, term.Listed) : chain info terms ≠ [] := by
  obtain ⟨init, last, rfl⟩ := (List.eq_nil_or_concat terms).resolve_left hne
  obtain ⟨value, hput⟩ := exists_putTerm info (h last (by simp))
  rw [chain, List.concat_eq_append, List.foldl_append, List.foldl_cons, List.foldl_nil, hput]
  split <;> exact Keyed.put_ne_nil _ _ _

/-! ### Reading chains -/

variable {c : Condition} {path : String} {doc : Document} {relevance : Nat}

/-- A pattern with the options that request texts set beside patterns. -/
abbrev caseless : Document := [("$regex", .null), ("$options", .string "i")]

theorem passes_options (value : Value) : Passes path caseless doc relevance ("$options", value) :=
  ⟨none, rfl, by simp⟩

/-- An operator in a chain means the same beside a pattern that no other operator is there with. -/
theorem Chained.passes_iff {field : String × Value} (h : Chained ops) (hmem : field ∈ ops) :
    Passes path ops doc relevance field ↔ Passes path caseless doc relevance field := by
  have hkeys : field.1 ∈ Keyed.keys ops := List.mem_map_of_mem hmem
  have hoptions := h.options
  suffices hread : readOperator path ops field.1 field.2 = readOperator path caseless field.1 field.2 by
    rw [Passes, Passes, hread]
  cases hregex : ops.get? "$regex" with
  | none =>
    rw [hregex] at hoptions
    refine readOperator_of_ne (fun hkey => ?_) fun hkey => ?_
    · exact Keyed.lookup_eq_none_iff.1 hregex (hkey ▸ hkeys)
    · exact Keyed.lookup_eq_none_iff.1 hoptions (hkey ▸ hkeys)
  | some pattern =>
    rw [hregex] at hoptions
    refine readOperator_congr ?_ ?_
    · rw [Document.string?, hoptions]
      rfl
    · rw [Document.contains, hregex]
      rfl

theorem admits_chain_iff_passes (hpath : isOperatorKey path = false) (hne : terms ≠ [])
    (h : ∀ term ∈ terms, term.Listed) :
    Admits [(path, .document (chain info terms))] doc relevance ↔
      ∀ field ∈ chain info terms, Passes path caseless doc relevance field := by
  rw [admits_operators_iff hpath (chain_ne_nil hne h) (isOperatorKey_of_mem_chain h)]
  exact forall₂_congr fun field hfield => (chained_chain h).passes_iff hfield

/-- A chain asks for each of its terms that is not overwritten. -/
theorem admits_chain_iff (hpath : isOperatorKey path = false) (hne : terms ≠ [])
    (h : ∀ term ∈ terms, term.Listed) :
    Admits [(path, .document (chain info terms))] doc relevance ↔
      ∀ term ∈ kept terms, Admits [(path, .document (chain info [term]))] doc relevance := by
  rw [admits_chain_iff_passes hpath hne h, forall_mem_chain_iff passes_options h]
  refine forall₂_congr fun term hterm => (admits_chain_iff_passes hpath (List.cons_ne_nil term []) ?_).symm
  exact List.forall_mem_singleton.2 (h term (mem_of_mem_kept hterm))

/-- A condition of listed terms is the document that they write, also for a single text without operator. -/
theorem admits_compile_iff_chain (hpath : isOperatorKey path = false) (hne : c.terms ≠ [])
    (h : ∀ term ∈ c.terms, term.Listed) :
    Admits [(path, c.compile info)] doc relevance ↔
      Admits [(path, .document (chain info c.terms))] doc relevance := by
  obtain ⟨isAlternative, raw, terms⟩ := c
  unfold compile
  dsimp only at hne h ⊢
  split
  · exact absurd rfl hne
  · next literal =>
    have heq : readField path (.document (chain info [⟨none, literal⟩])) =
        .ok (.equal path (coerceOrText info literal)) := by
      have hoperator : isOperatorKey "$eq" = true := by decide
      rw [readField_of_field hpath]
      show readCondition path (.document [("$eq", coerceOrText info literal)]) = _
      rw [readCondition, if_pos hoperator]
      rfl
    rw [admits_singleton_iff, admits_singleton_iff, heq,
      (Value.IsWritten.coerceOrText info literal).readField hpath]
  · rw [if_pos]
    · rfl
    · refine List.all_eq_true.2 fun term hterm => ?_
      rw [Option.all_eq_true]
      exact fun operator hoperator => isOperator_of_listed operator (h term hterm operator hoperator)

/-- The terms that a condition asks for; a text without terms is an empty text. -/
def meant (c : Condition) : List Term := if c.terms = [] then [⟨none, ""⟩] else c.terms

/-- A condition with one term alone. -/
def only (c : Condition) (term : Term) : Condition := { c with terms := [term] }

theorem meant_ne_nil (c : Condition) : c.meant ≠ [] := by
  unfold meant
  split <;> simp_all

theorem compile_meant (info : Option FieldInfo) (c : Condition) :
    Condition.compile info { c with terms := c.meant } = c.compile info := by
  obtain ⟨isAlternative, raw, terms⟩ := c
  cases terms with
  | nil => rfl
  | cons term rest => rfl

theorem listed_meant (h : ∀ term ∈ c.terms, term.Listed) : ∀ term ∈ c.meant, term.Listed := by
  unfold meant
  split
  · simp [Term.Listed]
  · exact h

/-- A document passes a condition if it passes each of the terms that no later one overwrites. -/
theorem admits_compile_iff (hpath : isOperatorKey path = false) (h : ∀ term ∈ c.terms, term.Listed) :
    Admits [(path, c.compile info)] doc relevance ↔
      ∀ term ∈ kept c.meant, Admits [(path, (c.only term).compile info)] doc relevance := by
  have hmeant := listed_meant h
  rw [← compile_meant, admits_compile_iff_chain hpath c.meant_ne_nil hmeant,
    admits_chain_iff hpath c.meant_ne_nil hmeant]
  refine forall₂_congr fun term hterm => ?_
  have hlisted : ∀ other ∈ (c.only term).terms, other.Listed :=
    List.forall_mem_singleton.2 (hmeant term (mem_of_mem_kept hterm))
  exact (admits_compile_iff_chain hpath (List.cons_ne_nil term []) hlisted).symm

/-- **What a chain of operators asks for.**  A document passes the condition of a text if it passes each
term alone that no later term with the same key overwrites; so it has to pass all terms if no key is
written twice. -/
theorem admits_text_iff {s : String} (hlisted : ∀ term ∈ (read s).terms, term.Listed)
    (hpath : isOperatorKey path = false) (info : Option FieldInfo) (doc : Document) (relevance : Nat) :
    (Admits [(path, (read s).compile info)] doc relevance ↔
        ∀ term ∈ kept (read s).meant, Admits [(path, ((read s).only term).compile info)] doc relevance) ∧
      (((read s).meant.map Term.key).Nodup →
        (Admits [(path, (read s).compile info)] doc relevance ↔
          ∀ term ∈ (read s).meant, Admits [(path, ((read s).only term).compile info)] doc relevance)) := by
  refine ⟨admits_compile_iff hpath hlisted, fun hnodup => ?_⟩
  rw [admits_compile_iff hpath hlisted, kept_of_nodup hnodup]

end Condition

/-! ### People by age and by name -/

namespace PeopleByAge

open Condition

def person (name : String) (age : Int64) : Document := [("name", .string name), ("age", .int64 age)]

def ageInfo : FieldInfo := ⟨.number, none, false⟩

/-- The text of a range of ages. -/
def minors : String := "\x7b$gte\x7d1\x7b$lte\x7d18"

theorem read_minors : read minors = ⟨false, minors, [⟨some "$gte", "1"⟩, ⟨some "$lte", "18"⟩]⟩ := by
  decide +kernel

theorem listed_minors : ∀ term ∈ (read minors).terms, term.Listed := by
  rw [read_minors]
  decide

theorem nodup_minors : ((read minors).meant.map Term.key).Nodup := by
  rw [read_minors]
  decide

/-- A range asks for both of its bounds. -/
theorem age_in_range :
    (∀ term ∈ (read minors).terms, term.Listed) ∧ isOperatorKey "age" = false ∧
      ((read minors).meant.map Term.key).Nodup ∧
      Admits [("age", (read minors).compile (some ageInfo))] (person "Ann" 7) 0 := by
  have hage : isOperatorKey "age" = false := by decide
  have hall := (admits_text_iff listed_minors hage (some ageInfo) (person "Ann" 7) 0).2 nodup_minors
  refine ⟨listed_minors, hage, nodup_minors, hall.2 ?_⟩
  rw [read_minors]
  intro term hterm
  rcases List.mem_pair.1 hterm with rfl | rfl
  · exact admits_singleton_iff.2 ⟨.compare "age" .atLeast (.int64 1), rfl, rfl⟩
  · exact admits_singleton_iff.2 ⟨.compare "age" .atMost (.int64 18), rfl, rfl⟩

/-- The text that asks for neither of two names. -/
def neither : String := "\x7b$ne\x7dAnn\x7b$ne\x7dBen"

theorem read_neither :
    read neither = ⟨false, neither, [⟨some "$ne", "Ann"⟩, ⟨some "$ne", "Ben"⟩]⟩ := by
  decide +kernel

/-- The first one of two operators of the same name is lost. -/
theorem first_name_lost :
    Admits [("name", (read neither).compile none)] (person "Ann" 7) 0 ∧
      ¬∀ term ∈ (read neither).terms,
        Admits [("name", ((read neither).only term).compile none)] (person "Ann" 7) 0 := by
  rw [read_neither]
  refine ⟨admits_singleton_iff.2 ⟨.unequal "name" (.string "Ben"), rfl, rfl⟩, fun h => ?_⟩
  obtain ⟨test, hread, hold⟩ := admits_singleton_iff.1 (h ⟨some "$ne", "Ann"⟩ (by simp))
  obtain rfl : Test.unequal "name" (.string "Ann") = test := Except.ok.inj hread
  exact absurd hold (by decide +kernel)

end PeopleByAge

end DocQuery
