import DocQuery.Pattern.Literal
import DocQuery.Pattern.Reader
import DocQuery.Proofs.Pattern.Places
import DocQuery.Proofs.Pattern.Size
import DocQuery.Proofs.Text.Folding
import DocQuery.Proofs.Text.Ranges
import Mathlib.Data.List.Infix
import Mathlib.Tactic.FinCases

/-!
# Escaped texts are found up to case

A text that was escaped is read character by character (`Pattern.read_escape`), and each character stands
for itself or, if case does not count, for all characters with the same folded form.  So the pattern spells
out a list of kinds of characters (`Pattern.Spells`), whether its parts were put together as one text or as
sets, and it is found in a text if some stretch of the text has these kinds, one after the other
(`Pattern.Spells.found_iff`).  Without regard to case this is to contain the text up to folding
(`Pattern.found_spelled_iff`).
-/

namespace DocQuery

/-! ### Sets of characters -/

namespace CharSet

open Text

theorem ascending_range {first last : Nat} (h : first ≤ last) : Ranges.Ascending (range first last) := by
  simpa [range, Ranges.Ascending] using Nat.lt_succ_of_le h

theorem contains_range {first last c : Nat} :
    (range first last).contains c = true ↔ first ≤ c ∧ c ≤ last := by
  rw [range, Ranges.contains]
  split
  · exact iff_of_false Bool.false_ne_true (by omega)
  · split
    · exact iff_of_true rfl (by omega)
    · exact iff_of_false Bool.false_ne_true (by omega)

variable {sets : List CharSet}

theorem ascending_unions (h : ∀ set ∈ sets, Ranges.Ascending set) : Ranges.Ascending (unions sets) := by
  induction sets with
  | nil => exact .nil
  | cons set rest ih =>
    rw [List.forall_mem_cons] at h
    exact Ranges.ascending_combine _ h.1 (ih h.2)

theorem contains_unions (h : ∀ set ∈ sets, Ranges.Ascending set) (c : Nat) :
    (unions sets).contains c = true ↔ ∃ set ∈ sets, Ranges.contains set c = true := by
  induction sets with
  | nil => simp [unions, Ranges.contains]
  | cons set rest ih =>
    rw [List.forall_mem_cons] at h
    have hunion : unions (set :: rest) = union set (unions rest) := rfl
    rw [hunion, union, Ranges.contains_combine rfl h.1 (ascending_unions h.2), Bool.or_eq_true, ih h.2,
      List.exists_mem_cons_iff]

/-- The variants of a character are the characters that share its folded form. -/
theorem contains_variants (c : Char) (d : Nat) :
    (variants c).contains d = true ↔ fold d = fold c.toNat := by
  have hranges : ∀ set ∈ (caseVariants c.toNat).map fun d => range d d, Ranges.Ascending set :=
    List.forall_mem_map.2 fun d _ => ascending_range (Nat.le_refl d)
  have hone : ∀ other, (range other other).contains d = true ↔ other = d := fun other => by
    rw [contains_range]
    omega
  rw [variants, contains_unions hranges, ← mem_caseVariants_iff]
  simp only [List.mem_map, exists_exists_and_eq_and, hone, exists_eq_right]

/-- If a set with a character in it has one member, it is that character. -/
theorem contains_iff_of_single {chars : CharSet} {c d : Char} (hsingle : single? chars = some d)
    (h : Ranges.contains chars c.toNat = true) (other : Char) :
    Ranges.contains chars other.toNat = true ↔ other = d := by
  unfold single? at hsingle
  split at hsingle
  · next start stop =>
    obtain ⟨rfl, rfl⟩ := Option.ite_some_none_eq_some.1 hsingle
    have hpoint : ∀ n, Ranges.contains [start, start + 1] n = true ↔ n = start := fun n => by
      rw [← range, contains_range]
      omega
    rw [hpoint] at h
    rw [hpoint, ← h, Char.ofNat_toNat, Char.toNat_inj]
  · cases hsingle

end CharSet

namespace Pattern

/-! ### Kinds of characters -/

/-- From one place of a text to another one, over a character of each kind. -/
def Passes (text : List Char) : List (Char → Prop) → Nat → Nat → Prop
  | [], i, j => i = j ∧ i ≤ text.length
  | kind :: kinds, i, j => ∃ c, text[i]? = some c ∧ kind c ∧ Passes text kinds (i + 1) j

variable {text : List Char} {kinds others : List (Char → Prop)} {kind : Char → Prop} {i j : Nat}

theorem passes_iff : Passes text kinds i j ↔ i ≤ text.length ∧
    ∃ mid, mid <+: text.drop i ∧ List.Forall₂ (fun kind c => kind c) kinds mid ∧ i + mid.length = j := by
  induction kinds generalizing i with
  | nil =>
    simp only [Passes, List.forall₂_nil_left_iff]
    constructor
    · rintro ⟨rfl, hi⟩
      exact ⟨hi, [], List.nil_prefix, rfl, rfl⟩
    · rintro ⟨hi, mid, -, rfl, hj⟩
      exact ⟨hj, hi⟩
  | cons kind kinds ih =>
    simp only [Passes, ih]
    constructor
    · rintro ⟨c, hc, hkind, -, mid, hmid, hkinds, hj⟩
      obtain ⟨hi, rfl⟩ := List.getElem?_eq_some_iff.1 hc
      refine ⟨Nat.le_of_lt hi, text[i] :: mid, ?_, .cons hkind hkinds, ?_⟩
      · rw [List.drop_eq_getElem_cons hi, List.cons_prefix_cons]
        exact ⟨rfl, hmid⟩
      · rw [List.length_cons]
        omega
    · rintro ⟨-, mid, hmid, hall, hj⟩
      obtain ⟨c, mid, hkind, hkinds, rfl⟩ := List.forall₂_cons_left_iff.1 hall
      have hi : i < text.length := by
        by_contra hge
        rw [List.drop_eq_nil_of_le (Nat.le_of_not_lt hge)] at hmid
        exact absurd (List.prefix_nil.1 hmid) (List.cons_ne_nil c mid)
      rw [List.drop_eq_getElem_cons hi, List.cons_prefix_cons] at hmid
      obtain ⟨rfl, hmid⟩ := hmid
      rw [List.length_cons] at hj
      exact ⟨_, List.getElem?_eq_getElem hi, hkind, hi, mid, hmid, hkinds, by omega⟩

theorem passes_append : Passes text (kinds ++ others) i j ↔
    ∃ k, Passes text kinds i k ∧ Passes text others k j := by
  induction kinds generalizing i with
  | nil =>
    constructor
    · exact fun h => ⟨i, ⟨rfl, (passes_iff.1 h).1⟩, h⟩
    · rintro ⟨k, ⟨rfl, -⟩, h⟩
      exact h
  | cons kind kinds ih =>
    simp only [List.cons_append, Passes, ih]
    constructor
    · rintro ⟨c, hc, hkind, k, hk, hj⟩
      exact ⟨k, ⟨c, hc, hkind, hk⟩, hj⟩
    · rintro ⟨k, ⟨c, hc, hkind, hk⟩, hj⟩
      exact ⟨c, hc, hkind, k, hk, hj⟩

/-- A stretch of a text has these kinds. -/
theorem exists_passes_iff : (∃ i j, i ≤ text.length ∧ Passes text kinds i j) ↔
    ∃ mid, mid <:+: text ∧ List.Forall₂ (fun kind c => kind c) kinds mid := by
  constructor
  · rintro ⟨i, j, -, h⟩
    obtain ⟨-, mid, hmid, hkinds, -⟩ := passes_iff.1 h
    exact ⟨mid, hmid.isInfix.trans (List.drop_suffix i text).isInfix, hkinds⟩
  · rintro ⟨mid, ⟨before, behind, rfl⟩, hkinds⟩
    have hi : before.length ≤ (before ++ mid ++ behind).length := by simp
    refine ⟨before.length, _, hi, passes_iff.2 ⟨hi, mid, ?_, hkinds, rfl⟩⟩
    simp

/-! ### Patterns that spell kinds out -/

/-- In every text a pattern matches just the stretches of these kinds. -/
def Spells (pattern : Pattern) (kinds : List (Char → Prop)) : Prop :=
  ∀ text i j, (pattern.moves text).Leads i j ↔ Passes text kinds i j

theorem Spells.found_iff {pattern : Pattern} (h : pattern.Spells kinds) (s : String) :
    pattern.found s = true ↔
      ∃ mid, mid <:+: s.toList ∧ List.Forall₂ (fun kind c => kind c) kinds mid := by
  rw [found_iff_leads, ← exists_passes_iff]
  simp only [h s.toList]

theorem leads_stay_all : (Moves.stay (Places.all text.length)).Leads i j ↔ Passes text [] i j := by
  rw [Moves.Leads, Places.testBit_all, decide_eq_true_iff, Passes]

theorem leads_step {p : Char → Bool} (h : ∀ c, p c = true ↔ kind c) :
    (Moves.step (placesBefore text p)).Leads i j ↔ Passes text [kind] i j := by
  have hbit : Nat.testBit (placesBefore text p) i = true ↔ ∃ c, text[i]? = some c ∧ kind c := by
    rw [placesBefore, Places.testBit_ofList, List.getD_eq_getElem?_getD, List.getElem?_map]
    cases text[i]? with
    | none => simp
    | some c => simp [h]
  rw [Moves.Leads, hbit]
  constructor
  · rintro ⟨rfl, c, hc, hkind⟩
    exact ⟨c, hc, hkind, rfl, (List.getElem?_eq_some_iff.1 hc).1⟩
  · rintro ⟨c, hc, hkind, rfl, -⟩
    exact ⟨rfl, c, hc, hkind⟩

theorem leads_both {first second : Moves} (hfirst : ∀ i j, first.Leads i j ↔ Passes text kinds i j)
    (hsecond : ∀ i j, second.Leads i j ↔ Passes text others i j) :
    (Moves.both first second).Leads i j ↔ Passes text (kinds ++ others) i j := by
  simp only [Moves.Leads, hfirst, hsecond, passes_append]

theorem spells_empty : Spells .empty [] := fun _ _ _ => leads_stay_all

theorem spells_set (chars : CharSet) :
    Spells (.set chars) [fun c => Text.Ranges.contains chars c.toNat = true] :=
  fun _ _ _ => leads_step fun _ => Iff.rfl

theorem spells_literal (chars : List Char) : Spells (.literal chars) (chars.map fun c d => d = c) := by
  intro text i j
  have hone : ∀ c i j, (Moves.step (placesBefore text (· == c))).Leads i j ↔
      Passes text [fun d => d = c] i j := fun c i j => leads_step fun d => beq_iff_eq
  rw [moves]
  induction chars using literalMoves.induct generalizing i j with
  | case1 => exact leads_stay_all
  | case2 c => exact hone c i j
  | case3 c rest hne ih =>
    rw [literalMoves.eq_3 _ _ _ hne]
    exact leads_both (hone c) ih

/-- Parts that spell kinds out, one after the other. -/
inductive SpellInTurn : List Pattern → List (Char → Prop) → Prop
  | nil : SpellInTurn [] []
  | cons {part : Pattern} {rest : List Pattern} {kinds others : List (Char → Prop)}
    (hpart : part.Spells kinds) (hrest : SpellInTurn rest others) :
    SpellInTurn (part :: rest) (kinds ++ others)

variable {part : Pattern} {rest parts : List Pattern}

theorem SpellInTurn.leads (h : SpellInTurn parts kinds) (i j : Nat) :
    (sequenceMoves text parts).Leads i j ↔ Passes text kinds i j := by
  induction h generalizing i j with
  | nil => exact leads_stay_all
  | cons hpart _ ih => exact leads_both (hpart text) ih

theorem Spells.append_literal {chars more : List Char} (h : Spells (.literal chars) kinds)
    (hmore : Spells (.literal more) others) : Spells (.literal (chars ++ more)) (kinds ++ others) := by
  intro text i j
  have hchars := fun i j => (spells_literal chars text i j).symm.trans (h text i j)
  have hothers := fun i j => (spells_literal more text i j).symm.trans (hmore text i j)
  rw [spells_literal, List.map_append, passes_append, passes_append]
  simp only [hchars, hothers]

/-- What takes no character spells out nothing. -/
theorem Spells.eq_nil_of_empty (h : Spells .empty kinds) : kinds = [] := by
  cases kinds with
  | nil => rfl
  | cons kind kinds =>
    obtain ⟨c, hc, -⟩ := (h [] 0 0).1 ((spells_empty [] 0 0).2 ⟨rfl, Nat.le_refl 0⟩)
    cases hc

theorem SpellInTurn.prependPart (h : SpellInTurn rest others) (hpart : part.Spells kinds) :
    SpellInTurn (prependPart part rest) (kinds ++ others) := by
  unfold Pattern.prependPart
  split
  · rw [hpart.eq_nil_of_empty]
    exact h
  · cases h with
    | cons hmore hrest =>
      rw [← List.append_assoc]
      exact .cons (hpart.append_literal hmore) hrest
  · exact .cons hpart h

theorem SpellInTurn.prepend (h : SpellInTurn rest others) (hpart : part.Spells kinds)
    (hplain : part.isPlain = true) : SpellInTurn (prepend part rest) (kinds ++ others) := by
  unfold Pattern.prepend
  split
  · cases hplain
  · exact h.prependPart hpart

theorem SpellInTurn.inSequence (h : SpellInTurn (parts.foldr Pattern.prepend []) kinds) :
    (inSequence parts).Spells kinds := by
  unfold Pattern.inSequence
  split
  · next heq =>
    rw [heq] at h
    cases h
    exact spells_empty
  · next pattern heq =>
    rw [heq] at h
    cases h with
    | cons hpart hrest =>
      cases hrest
      rwa [List.append_nil]
  · exact fun text i j => h.leads i j

/-- Parts of one kind each, one after the other. -/
theorem spells_inSequence {α : Type} {part : α → Pattern} {kind : α → Char → Prop}
    (h : ∀ x, (part x).Spells [kind x]) (hplain : ∀ x, (part x).isPlain = true) (xs : List α) :
    (inSequence (xs.map part)).Spells (xs.map kind) := by
  refine SpellInTurn.inSequence ?_
  induction xs with
  | nil => exact .nil
  | cons x rest ih => exact ih.prepend (h x) (hplain x)

/-! ### Literal characters -/

/-- A set with a character in it stands for that character alone, or for the characters in it. -/
theorem spells_ofSet {chars : CharSet} {c : Char} (h : Text.Ranges.contains chars c.toNat = true) :
    (ofSet chars).Spells [fun d => Text.Ranges.contains chars d.toNat = true] := by
  unfold ofSet
  split
  · next d hsingle =>
    have hkind : (fun d : Char => Text.Ranges.contains chars d.toNat = true) = fun other => other = d :=
      funext fun other => propext (CharSet.contains_iff_of_single hsingle h other)
    rw [hkind]
    exact spells_literal [d]
  · exact spells_set chars

theorem isPlain_ofSet (chars : CharSet) : (ofSet chars).isPlain = true := by
  unfold ofSet
  split <;> rfl

namespace Flags

/-- The characters that a literal character stands for, if case does not count. -/
theorem spells_literal {flags : Flags} (hcaseless : flags.caseless = true) (hascii : flags.ascii = false)
    (c : Char) : (flags.literal c).Spells [fun d => Text.fold d.toNat = Text.fold c.toNat] := by
  have hliteral : flags.literal c = ofSet (.variants c) := by
    simp [literal, hcaseless, hascii]
  have hkind : (fun d : Char => Text.Ranges.contains (CharSet.variants c) d.toNat = true) =
      fun d => Text.fold d.toNat = Text.fold c.toNat :=
    funext fun d => propext (CharSet.contains_variants c d.toNat)
  rw [hliteral, ← hkind]
  exact spells_ofSet ((CharSet.contains_variants c c.toNat).2 rfl)

theorem isPlain_literal (flags : Flags) (c : Char) : (flags.literal c).isPlain = true := by
  unfold literal
  split
  · rfl
  · split <;> exact isPlain_ofSet _

end Flags

/-! ### Texts of simple parts -/

variable {flags : Flags}

/-- A text is read as one more item, whatever stands around it. -/
def ReadsAs (flags : Flags) (written : List Char) (part : Pattern) : Prop :=
  ∀ fuel done items rest, readGroup (fuel + 1) flags done items (written ++ rest) =
    readGroup fuel flags done (.simple part :: items) rest

theorem readGroup_nil (hverbose : flags.verbose = false) (fuel : Nat) (done items : List Item) :
    readGroup (fuel + 1) flags done items [] = some (.ofItems done items, []) := by
  simp [readGroup, Flags.skip, hverbose]

theorem ReadsAs.ne_nil {written : List Char} {part : Pattern} (hverbose : flags.verbose = false)
    (h : ReadsAs flags written part) : written ≠ [] := by
  rintro rfl
  have hread := h 0 [] [] []
  rw [List.append_nil, readGroup_nil hverbose] at hread
  cases hread

theorem inSequence_singleton {part : Pattern} (h : part.isPlain = true) : inSequence [part] = part := by
  cases part <;> first | rfl | cases h

/-- Simple parts one after the other are one item, at most one level deep. -/
theorem combined_simple {parts : List Pattern} (h : ∀ part ∈ parts, part.isPlain = true) :
    (Item.combined inSequence (parts.map .simple)).pattern = inSequence parts ∧
      (Item.combined inSequence (parts.map .simple)).depth ≤ nestingLimit := by
  have hdepths : ∀ parts : List Pattern, ((parts.map Item.simple).map Item.depth).foldl max 0 = 0 := by
    intro parts
    induction parts with
    | nil => rfl
    | cons part rest ih => exact ih
  match parts with
  | [] => exact ⟨rfl, Nat.zero_le _⟩
  | [part] => exact ⟨(inSequence_singleton (h part List.mem_cons_self)).symm, Nat.zero_le _⟩
  | first :: second :: rest =>
    have hpatterns : ((first :: second :: rest).map Item.simple).map Item.pattern =
        first :: second :: rest := by
      rw [List.map_map]
      exact List.map_id _
    have hone : 0 + 1 ≤ nestingLimit := by decide
    have hdepth := congrArg (· + 1) (hdepths (first :: second :: rest))
    exact ⟨congrArg inSequence hpatterns, hdepth.trans_le hone⟩

section Simple

variable {α : Type} {written : α → List Char} {part : α → Pattern}

/-- The items of such a text, the last one first. -/
theorem readGroup_flatMap (hverbose : flags.verbose = false)
    (h : ∀ x, ReadsAs flags (written x) (part x)) {xs : List α} {fuel : Nat} (hfuel : xs.length < fuel)
    (items : List Item) : readGroup fuel flags [] items (xs.flatMap written) =
      some (.ofItems [] (((xs.map part).map .simple).reverse ++ items), []) := by
  induction xs generalizing fuel items with
  | nil =>
    obtain ⟨fuel, rfl⟩ := Nat.exists_eq_succ_of_ne_zero (Nat.ne_of_gt hfuel)
    exact readGroup_nil hverbose fuel [] items
  | cons x rest ih =>
    obtain ⟨fuel, rfl⟩ := Nat.exists_eq_succ_of_ne_zero (Nat.ne_of_gt (Nat.zero_lt_of_lt hfuel))
    rw [List.flatMap_cons, h x, ih (Nat.lt_of_succ_lt_succ hfuel)]
    simp

theorem length_le_flatMap (h : ∀ x, written x ≠ []) (xs : List α) :
    xs.length ≤ (xs.flatMap written).length := by
  induction xs with
  | nil => exact Nat.le_refl 0
  | cons x rest ih =>
    have hone := List.length_pos_iff.2 (h x)
    rw [List.flatMap_cons, List.length_append, List.length_cons]
    omega

/-- A text of simple parts is read as these parts, unless the automaton of the pattern is too large. -/
theorem read_flatMap (hverbose : flags.verbose = false) (h : ∀ x, ReadsAs flags (written x) (part x))
    (hplain : ∀ x, (part x).isPlain = true) (xs : List α) :
    read flags (String.ofList (xs.flatMap written)) =
      if (inSequence (xs.map part)).fits then some (inSequence (xs.map part)) else none := by
  have hfuel := Nat.lt_succ_of_le (length_le_flatMap (fun x => (h x).ne_nil hverbose) xs)
  obtain ⟨hpattern, hdepth⟩ := combined_simple (List.forall_mem_map.2 fun x (_ : x ∈ xs) => hplain x)
  rw [read, String.toList_ofList, readGroup_flatMap hverbose h hfuel, List.append_nil, GroupBody.ofItems,
    Item.inSequence, List.reverse_reverse]
  generalize Item.combined inSequence _ = item at hpattern hdepth
  simp [Item.oneOf, Item.combined, ← hpattern, hdepth]

end Simple

/-! ### Escaped texts -/

/-- A character as it is escaped. -/
def escaped (c : Char) : List Char := if isMeta c then ['\\', c] else [c]

theorem escaped_append_inj {c d : Char} {rest others : List Char}
    (h : escaped c ++ rest = escaped d ++ others) : c = d ∧ rest = others := by
  have hbackslash : isMeta '\\' = true := by decide
  unfold escaped at h
  split at h <;> split at h
  · simpa using h
  · next hd =>
    obtain ⟨rfl, -⟩ := List.cons.inj h
    exact absurd hbackslash hd
  · next hc _ =>
    obtain ⟨rfl, -⟩ := List.cons.inj h
    exact absurd hbackslash hc
  · simpa using h

theorem escaped_append_ne_nil (c : Char) (rest : List Char) : escaped c ++ rest ≠ [] := by
  unfold escaped
  split <;> simp

theorem flatMap_escaped_injective {cs ds : List Char} (h : cs.flatMap escaped = ds.flatMap escaped) :
    cs = ds := by
  induction cs generalizing ds with
  | nil =>
    cases ds with
    | nil => rfl
    | cons d ds => exact absurd h.symm (escaped_append_ne_nil d _)
  | cons c cs ih =>
    cases ds with
    | nil => exact absurd h (escaped_append_ne_nil c _)
    | cons d ds =>
      obtain ⟨rfl, hrest⟩ := escaped_append_inj h
      rw [ih hrest]

/-- Different texts are escaped in different ways. -/
theorem escape_injective : Function.Injective escape := fun _ _ h =>
  String.toList_inj.1 (flatMap_escaped_injective (String.ofList_injective h))

theorem readEscape_of_isMeta {c : Char} (h : isMeta c = true) (flags : Flags) (rest : List Char) :
    readEscape flags (c :: rest) = some (.literal c, rest) := by
  have hmem : c ∈ metaCharacters := List.contains_iff_mem.1 h
  fin_cases hmem <;> simp [readEscape, shortSet?, controlChar?]

/-- A character that means nothing in a pattern stands for itself. -/
theorem readsAs_plain (hverbose : flags.verbose = false) {c : Char} (h : isMeta c = false) :
    ReadsAs flags [c] (flags.literal c) := by
  intro fuel done items rest
  have hplain : c ∉ metaCharacters := fun hmem => by
    rw [isMeta, List.contains_iff_mem.2 hmem] at h
    cases h
  simp only [metaCharacters, List.mem_cons, List.not_mem_nil, not_or] at hplain
  simp [readGroup, Flags.skip, hverbose, readSimple, hplain]

/-- An escaped character stands for itself. -/
theorem readsAs_escaped (hverbose : flags.verbose = false) (c : Char) :
    ReadsAs flags (escaped c) (flags.literal c) := by
  unfold escaped
  split
  · next h =>
    intro fuel done items rest
    simp [readGroup, Flags.skip, hverbose, readSimple, readEscape_of_isMeta h, Atom.pattern]
  · next h => exact readsAs_plain hverbose (eq_false_of_ne_true h)

/-- The pattern of a text, character by character. -/
def spelled (flags : Flags) (s : String) : Pattern := inSequence (s.toList.map flags.literal)

/-- An escaped text is read as its pattern, unless the automaton of the pattern is too large. -/
theorem read_escape (hverbose : flags.verbose = false) (s : String) :
    read flags (escape s) = if (spelled flags s).fits then some (spelled flags s) else none :=
  read_flatMap hverbose (readsAs_escaped hverbose) flags.isPlain_literal s.toList

/-- Without regard to case, the pattern of a text is found where the text is contained. -/
theorem found_spelled_iff (hcaseless : flags.caseless = true) (hascii : flags.ascii = false)
    (term s : String) : (spelled flags term).found s = true ↔ Text.Contains s term := by
  have hspells := spells_inSequence (Flags.spells_literal hcaseless hascii) flags.isPlain_literal term.toList
  rw [spelled, hspells.found_iff, Text.Contains, Text.folded, Text.folded, List.infix_map_iff]
  refine exists_congr fun mid => and_congr_right fun _ => ?_
  rw [List.forall₂_map_left_iff, ← List.forall₂_eq_eq_eq, List.forall₂_map_left_iff,
    List.forall₂_map_right_iff]
  simp only [eq_comm]

/-! ### Texts whose case counts -/

theorem literal_of_caseful (hcaseful : flags.caseless = false) : flags.literal = fun c => .literal [c] := by
  funext c
  rw [Flags.literal, hcaseful]
  rfl

/-- With regard to case, the pattern of a text is that text as a whole. -/
theorem spelled_of_caseful (hcaseful : flags.caseless = false) {s : String} (hs : s ≠ "") :
    spelled flags s = .literal s.toList := by
  have hjoined : ∀ (c : Char) (rest : List Char),
      ((c :: rest).map flags.literal).foldr prepend [] = [.literal (c :: rest)] := by
    intro c rest
    rw [literal_of_caseful hcaseful]
    induction rest generalizing c with
    | nil => rfl
    | cons d rest ih =>
      rw [List.map_cons, List.foldr_cons, ih d]
      rfl
  obtain ⟨c, rest, hchars⟩ := List.exists_cons_of_ne_nil (mt String.toList_eq_nil_iff.1 hs)
  rw [spelled, hchars, inSequence, hjoined]

/-- With regard to case, a text can be looked for if it does not have too many bytes. -/
theorem fits_spelled_iff (hcaseful : flags.caseless = false) (s : String) :
    (spelled flags s).fits = true ↔ s.utf8ByteSize ≤ longestText := by
  by_cases hs : s = ""
  · have hempty : spelled flags s = .empty := by
      rw [hs]
      rfl
    rw [hempty, hs]
    decide
  · rw [spelled_of_caseful hcaseful hs, fits_literal_iff, String.ofList_toList]

/-- With regard to case, the pattern of a text is found where the text is contained. -/
theorem found_spelled_of_caseful_iff (hcaseful : flags.caseless = false) (term s : String) :
    (spelled flags term).found s = true ↔ term.toList <:+: s.toList := by
  have hspells : ∀ c, (flags.literal c).Spells [fun d => d = c] := fun c => by
    rw [literal_of_caseful hcaseful]
    exact spells_literal [c]
  have hsame : (fun c d : Char => d = c) = Eq := funext₂ fun _ _ => propext eq_comm
  rw [spelled, (spells_inSequence hspells flags.isPlain_literal term.toList).found_iff]
  simp only [List.forall₂_map_left_iff, hsame, List.forall₂_eq_eq_eq, exists_eq_right']

end Pattern

end DocQuery
