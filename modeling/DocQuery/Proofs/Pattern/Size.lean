import DocQuery.Pattern.Automaton
import Mathlib.Algebra.BigOperators.Group.List.Basic
import Mathlib.Algebra.BigOperators.Ring.List
import Mathlib.Algebra.Ring.Nat
import Mathlib.Data.List.SplitBy

/-!
# How large automata become

The automaton of a text has a state for each byte, so it is known exactly which texts fit
(`Pattern.fits_literal_iff`).  The automaton of a set shares states, and which ones depends on what was built
before; but whatever is shared, it takes no more than a fixed number of bytes for each of its byte sequences
(`CharSet.bytes_extend_le`).  So texts and sets one after the other take no more than the sum of what each of
them is charged (`Pattern.charge`), and they fit if this sum is small enough (`Pattern.fits_inSequence`).
-/

namespace DocQuery

/-- What a fold adds to a size is no more than the sum of what its steps add. -/
theorem foldl_le_add_sum {α σ : Type} {f : σ → α → σ} (size : σ → Nat) (cost : α → Nat)
    (xs : List α) (h : ∀ state, ∀ x ∈ xs, size (f state x) ≤ size state + cost x) (state : σ) :
    size (xs.foldl f state) ≤ size state + (xs.map cost).sum := by
  induction xs generalizing state with
  | nil => exact Nat.le_refl _
  | cons x rest ih =>
    have hfirst := h state x List.mem_cons_self
    have hrest := ih (fun state y hy => h state y (List.mem_cons_of_mem x hy)) (f state x)
    rw [List.foldl_cons, List.map_cons, List.sum_cons]
    omega

namespace Extent

variable {extent : Extent}

theorem fits_iff : extent.fits = true ↔ extent.bytes ≤ limit := decide_eq_true_iff

theorem limit_eq : limit = 10485760 := rfl

@[simp]
theorem bytes_push (extent : Extent) (count : Nat) :
    (extent.push count).bytes = extent.bytes + 32 * count := by
  simp only [push, bytes]
  omega

@[simp]
theorem bytes_pushSpans (extent : Extent) (count : Nat) :
    (extent.pushSpans count).bytes = extent.bytes + (32 + 8 * count) := by
  simp only [pushSpans, bytes]
  omega

@[simp]
theorem bytes_branch (extent : Extent) (count : Nat) :
    (extent.branch count).bytes = extent.bytes + 4 * count := by
  simp only [branch, bytes]
  omega

end Extent

/-! ### Sets -/

theorem SharedStates.bytes_find_le {built : Extent → Extent} {cost : Nat}
    (h : ∀ extent, (built extent).bytes ≤ extent.bytes + cost) (slots : Nat) (key : StateKey)
    (shared : SharedStates) :
    (shared.find slots key built).2.extent.bytes ≤ shared.extent.bytes + cost := by
  unfold find
  dsimp only
  split
  · split
    · exact Nat.le_add_right _ _
    · exact h _
  · exact h _

/-- One group of the byte sequences that a state leads to, all of which begin alike. -/
def forwardStep (target length : Nat) (acc : StateKey × SharedStates) (group : List (List Text.ByteSpan)) :
    StateKey × SharedStates :=
  match group with
  | ((first, last) :: rest) :: _ =>
    let (next, shared) :=
      if rest.isEmpty then (target, acc.2)
      else forwardState target length (group.map List.tail) acc.2
    (acc.1 ++ [first, last, next], shared)
  | _ => acc

theorem forwardState_succ (target length : Nat) (sequences : List (List Text.ByteSpan))
    (shared : SharedStates) :
    let groups := sequences.splitBy fun a b => a.head? == b.head?
    let acc := groups.foldl (forwardStep target length) ([], shared)
    forwardState target (length + 1) sequences shared =
      acc.2.find 10000 acc.1 fun extent => extent.pushSpans groups.length := rfl

/-- Going over byte sequences forward takes a state for each place in each of them at most. -/
theorem bytes_forwardState_le (target length : Nat) {sequences : List (List Text.ByteSpan)}
    (hne : sequences ≠ []) (shared : SharedStates) :
    (forwardState target length sequences shared).2.extent.bytes ≤
      shared.extent.bytes + 40 * length * sequences.length := by
  induction length generalizing sequences shared with
  | zero => exact Nat.le_add_right _ _
  | succ length ih =>
    let groups := sequences.splitBy fun a b => a.head? == b.head?
    have hgroups : ∀ group ∈ groups, group ≠ [] := fun _ => List.ne_nil_of_mem_splitBy
    have hlengths : (groups.map List.length).sum = sequences.length := by
      rw [← List.length_flatten, List.flatten_splitBy]
    have hcount : groups.length ≤ sequences.length := by
      rw [← hlengths, ← List.length_map (f := List.length)]
      exact List.length_le_sum_of_one_le _ <|
        List.forall_mem_map.2 fun group hgroup => List.length_pos_iff.2 (hgroups group hgroup)
    have hstep : ∀ acc : StateKey × SharedStates, ∀ group ∈ groups,
        (forwardStep target length acc group).2.extent.bytes ≤
          acc.2.extent.bytes + 40 * length * group.length := by
      intro acc group hgroup
      unfold forwardStep
      split
      · next first last rest others =>
        dsimp only
        split
        · exact Nat.le_add_right _ _
        · have htails := ih (List.cons_ne_nil rest (others.map List.tail)) acc.2
          rwa [List.length_cons, List.length_map] at htails
      · exact Nat.le_add_right _ _
    have hfold := foldl_le_add_sum (fun acc : StateKey × SharedStates => acc.2.extent.bytes)
      (fun group : List (List Text.ByteSpan) => 40 * length * group.length) groups hstep ([], shared)
    rw [List.sum_map_mul_left, hlengths] at hfold
    have hfind := SharedStates.bytes_find_le
      (fun extent => (extent.bytes_pushSpans groups.length).le) 10000
      (groups.foldl (forwardStep target length) ([], shared)).1
      (groups.foldl (forwardStep target length) ([], shared)).2
    have hpos := List.length_pos_iff.2 hne
    rw [forwardState_succ]
    refine hfind.trans ((Nat.add_le_add_right hfold _).trans ?_)
    rw [Nat.mul_succ, Nat.add_mul]
    dsimp only
    omega

/-- One byte of a sequence that leads back. -/
def backwardStep (acc : Nat × SharedStates) (span : Text.ByteSpan) : Nat × SharedStates :=
  acc.2.find 1000 [acc.1, span.1, span.2] fun extent => extent.push 1

theorem addBackward_eq (target : Nat) (shared : SharedStates) (sequence : List Text.ByteSpan) :
    (addBackward target shared sequence).extent =
      (sequence.foldl backwardStep (target, shared)).2.extent.branch 1 := rfl

theorem bytes_addBackward_le (target : Nat) (shared : SharedStates) (sequence : List Text.ByteSpan) :
    (addBackward target shared sequence).extent.bytes ≤
      shared.extent.bytes + (32 * sequence.length + 4) := by
  have hfold := foldl_le_add_sum (fun acc : Nat × SharedStates => acc.2.extent.bytes)
    (fun _ => 32) sequence (f := backwardStep)
    (fun acc span _ => SharedStates.bytes_find_le (fun extent => (extent.bytes_push 1).le) 1000
      [acc.1, span.1, span.2] acc.2) (target, shared)
  rw [List.map_const', List.sum_replicate_nat, Nat.mul_comm] at hfold
  rw [addBackward_eq, Extent.bytes_branch]
  dsimp only at hfold
  omega

/-- The most that the automaton of some byte sequences takes, forward or backward. -/
def chargeOf (sequences : List (List Text.ByteSpan)) : Nat :=
  (sequences.map fun sequence => 160 + 32 * sequence.length).sum

theorem length_le_chargeOf (sequences : List (List Text.ByteSpan)) :
    160 * sequences.length ≤ chargeOf sequences := by
  induction sequences with
  | nil => exact Nat.le_refl 0
  | cons sequence rest ih =>
    rw [chargeOf] at ih ⊢
    rw [List.map_cons, List.sum_cons, List.length_cons]
    omega

/-- The automaton of a set grows with its byte sequences at most, whatever is shared. -/
theorem CharSet.bytes_extend_le (forward : Bool) (chars : CharSet) (extent : Extent) :
    (chars.extend forward extent).bytes ≤
      extent.bytes + (64 + 8 * (Text.Ranges.spans chars).length + chargeOf chars.byteSpans) := by
  unfold extend
  split
  · rw [Extent.bytes_pushSpans, Extent.bytes_push]
    omega
  · split
    · have hcharge := length_le_chargeOf chars.byteSpans
      by_cases hne : chars.byteSpans = []
      · rw [hne, forwardState_succ]
        have hfind := SharedStates.bytes_find_le (fun extent => (extent.bytes_pushSpans 0).le) 10000 []
          ⟨extent.push 1, ∅⟩
        rw [Extent.bytes_push] at hfind
        refine hfind.trans ?_
        omega
      · have hforward := bytes_forwardState_le extent.states 4 hne ⟨extent.push 1, ∅⟩
        rw [Extent.bytes_push] at hforward
        omega
    · have hfold := foldl_le_add_sum (fun shared : SharedStates => shared.extent.bytes)
        (fun sequence => 160 + 32 * sequence.length) chars.byteSpans
        (f := addBackward (extent.states + 1)) (fun shared sequence _ => ?_) ⟨extent.push 2, ∅⟩
      · rw [← chargeOf] at hfold
        dsimp only at hfold
        rw [Extent.bytes_push] at hfold
        omega
      · have hstep := bytes_addBackward_le (extent.states + 1) shared sequence
        omega

/-! ### Texts and sets one after the other -/

namespace Pattern

variable {pattern part : Pattern} {parts rest : List Pattern} {extent : Extent} {forward : Bool}

/-- A text or a set. -/
def isPlain : Pattern → Bool
  | .literal _ => true
  | .set _ => true
  | _ => false

/-- The memory that a text or a set takes at most. -/
def charge : Pattern → Nat
  | .literal text => 32 * (text.map Char.utf8Size).sum
  | .set chars => 64 + 8 * (Text.Ranges.spans chars).length + chargeOf chars.byteSpans
  | _ => 0

/-- The memory that some of them take at most. -/
def chargeAll (parts : List Pattern) : Nat := (parts.map charge).sum

theorem chargeAll_cons (part : Pattern) (rest : List Pattern) :
    chargeAll (part :: rest) = part.charge + chargeAll rest := by
  rw [chargeAll, List.map_cons, List.sum_cons, chargeAll]

theorem closed_of_le (h : extent.bytes ≤ Extent.limit) : closed extent = some ⟨extent, false⟩ :=
  if_pos (Extent.fits_iff.2 h)

theorem extend_literal (forward : Bool) (text : List Char) (extent : Extent) :
    (Pattern.literal text).extend forward extent = closed (extent.push (text.map Char.utf8Size).sum) := rfl

/-- A group is read forward with a state in front of it and one behind it. -/
theorem extend_group (body : Pattern) (extent : Extent) :
    body.group.extend true extent =
      (body.extend true (extent.push 1)).bind fun built => closed (built.joined.push 1) := rfl

/-- What is built of a text or a set is no larger than what it is charged. -/
theorem exists_extend_of_isPlain (forward : Bool) (hplain : pattern.isPlain = true) (extent : Extent)
    (hfits : extent.bytes + pattern.charge ≤ Extent.limit) :
    ∃ next, pattern.extend forward extent = some ⟨next, false⟩ ∧
      next.bytes ≤ extent.bytes + pattern.charge := by
  cases pattern with
  | literal text =>
    have hbytes := (extent.bytes_push (text.map Char.utf8Size).sum).le
    exact ⟨_, closed_of_le (hbytes.trans hfits), hbytes⟩
  | set chars =>
    have hbytes := chars.bytes_extend_le forward extent
    exact ⟨_, closed_of_le (hbytes.trans hfits), hbytes⟩
  | _ => cases hplain

theorem exists_extendSequence (forward : Bool) (hne : parts ≠ [])
    (hplain : ∀ part ∈ parts, part.isPlain = true) (extent : Extent)
    (hfits : extent.bytes + chargeAll parts ≤ Extent.limit) :
    ∃ next, extendSequence forward parts extent = some ⟨next, false⟩ ∧
      next.bytes ≤ extent.bytes + chargeAll parts := by
  induction parts generalizing extent with
  | nil => exact absurd rfl hne
  | cons part rest ih =>
    rw [List.forall_mem_cons] at hplain
    rw [chargeAll_cons] at hfits ⊢
    cases rest with
    | nil => exact exists_extend_of_isPlain forward hplain.1 extent hfits
    | cons second rest =>
      have hrest := List.cons_ne_nil second rest
      rw [extendSequence.eq_3 _ _ _ _ hrest]
      split
      · obtain ⟨built, hbuilt, hbytes⟩ := exists_extend_of_isPlain forward hplain.1 extent (by omega)
        obtain ⟨next, hnext, hmore⟩ := ih hrest hplain.2 built (by omega)
        exact ⟨next, by rw [hbuilt, Option.bind_some]; exact hnext, by omega⟩
      · obtain ⟨built, hbuilt, hbytes⟩ := ih hrest hplain.2 extent (by omega)
        obtain ⟨next, hnext, hmore⟩ := exists_extend_of_isPlain forward hplain.1 built (by omega)
        exact ⟨next, by rw [hbuilt, Option.bind_some]; exact hnext, by omega⟩

theorem extend_inSequence (forward : Bool) (parts : List Pattern) (extent : Extent) :
    (inSequence parts).extend forward extent = extendSequence forward (parts.foldr prepend []) extent := by
  unfold inSequence
  split
  · next heq => rw [heq]; rfl
  · next part heq => rw [heq]; rfl
  · rfl

/-- Joining texts changes nothing of what is charged. -/
theorem plain_prepend (hpart : part.isPlain = true) (hrest : ∀ other ∈ rest, other.isPlain = true) :
    (∀ other ∈ prepend part rest, other.isPlain = true) ∧
      chargeAll (prepend part rest) = part.charge + chargeAll rest := by
  have hprepend : prepend part rest = prependPart part rest := by
    cases part <;> first | rfl | cases hpart
  rw [hprepend]
  unfold prependPart
  split
  · cases hpart
  · next text more rest =>
    rw [List.forall_mem_cons] at hrest
    refine ⟨List.forall_mem_cons.2 ⟨rfl, hrest.2⟩, ?_⟩
    simp only [chargeAll_cons, charge, List.map_append, List.sum_append]
    omega
  · exact ⟨List.forall_mem_cons.2 ⟨hpart, hrest⟩, chargeAll_cons _ _⟩

theorem plain_foldr_prepend (hplain : ∀ part ∈ parts, part.isPlain = true) :
    (∀ part ∈ parts.foldr prepend [], part.isPlain = true) ∧
      chargeAll (parts.foldr prepend []) = chargeAll parts := by
  induction parts with
  | nil => exact ⟨by simp, rfl⟩
  | cons part rest ih =>
    rw [List.forall_mem_cons] at hplain
    obtain ⟨hrest, hcharge⟩ := ih hplain.2
    obtain ⟨hall, hsum⟩ := plain_prepend hplain.1 hrest
    exact ⟨hall, by rw [List.foldr_cons, hsum, hcharge, chargeAll_cons]⟩

theorem bytes_leadExtent_le (forward : Bool) (pattern : Pattern) :
    (leadExtent forward pattern).bytes ≤ 112 := by
  unfold leadExtent
  dsimp only
  generalize (if forward = true then pattern.beginsWith Look.textStart
    else pattern.endsWith Look.textEnd) = isAnchored
  cases isAnchored <;> decide

theorem fitsReading_of_extend (forward : Bool) (pattern : Pattern) {next : Extent}
    (h : (if forward then pattern.group else pattern).extend forward (leadExtent forward pattern) =
      some ⟨next, false⟩) : pattern.fitsReading forward = (next.push 1).fits := by
  rw [fitsReading, h]
  rfl

/-- Texts and sets one after the other fit if the sum of what they are charged is not too large. -/
theorem fits_inSequence (hplain : ∀ part ∈ parts, part.isPlain = true)
    (hfits : chargeAll parts + 208 ≤ Extent.limit) : (inSequence parts).fits = true := by
  obtain ⟨hall, hcharge⟩ := plain_foldr_prepend hplain
  by_cases hne : parts.foldr prepend [] = []
  · have hempty : inSequence parts = .empty := by rw [inSequence, hne]
    rw [hempty]
    decide
  rw [← hcharge] at hfits
  rw [fits, Bool.and_eq_true]
  constructor
  · have hlead := bytes_leadExtent_le true (inSequence parts)
    have hopen := (leadExtent true (inSequence parts)).bytes_push 1
    obtain ⟨built, hbuilt, hbytes⟩ :=
      exists_extendSequence true hne hall ((leadExtent true (inSequence parts)).push 1) (by omega)
    have hclose := built.bytes_push 1
    have hgroup : (inSequence parts).group.extend true (leadExtent true (inSequence parts)) =
        some ⟨built.push 1, false⟩ := by
      have hinner : (built.push 1).bytes ≤ Extent.limit := by omega
      rw [extend_group, extend_inSequence, hbuilt]
      exact closed_of_le hinner
    rw [fitsReading_of_extend true _ hgroup, Extent.fits_iff, Extent.bytes_push]
    omega
  · have hlead := bytes_leadExtent_le false (inSequence parts)
    obtain ⟨built, hbuilt, hbytes⟩ :=
      exists_extendSequence false hne hall (leadExtent false (inSequence parts)) (by omega)
    have hwhole : (inSequence parts).extend false (leadExtent false (inSequence parts)) =
        some ⟨built, false⟩ := by rw [extend_inSequence, hbuilt]
    rw [fitsReading_of_extend false (inSequence parts) hwhole, Extent.fits_iff, Extent.bytes_push]
    omega

theorem closed_eq_some_iff {built : Built} :
    closed extent = some built ↔ extent.bytes ≤ Extent.limit ∧ built = ⟨extent, false⟩ := by
  rw [closed, Option.ite_none_right_eq_some, Extent.fits_iff, Option.some.injEq, eq_comm (a := built)]

theorem utf8ByteSize_ofList (cs : List Char) :
    (String.ofList cs).utf8ByteSize = (cs.map Char.utf8Size).sum := by
  induction cs with
  | nil => rfl
  | cons c rest ih =>
    rw [String.ofList_cons, String.utf8ByteSize_append, String.utf8ByteSize_singleton, ih]
    rfl

/-- The bytes of the longest texts that fit. -/
def longestText : Nat := 327673

/-- A text fits if it does not have too many bytes. -/
theorem fits_literal_iff (text : List Char) :
    (Pattern.literal text).fits = true ↔ (String.ofList text).utf8ByteSize ≤ longestText := by
  rw [utf8ByteSize_ofList, longestText]
  have hlead : ∀ forward, (leadExtent forward (.literal text)).bytes = 112 := fun forward => by
    cases forward <;> rfl
  have hlimit := Extent.limit_eq
  constructor
  · intro h
    rw [fits, Bool.and_eq_true] at h
    have hforward := h.1
    rw [fitsReading, if_pos rfl] at hforward
    split at hforward
    · next built hbuilt =>
      rw [extend_group, Option.bind_eq_some_iff] at hbuilt
      obtain ⟨inner, hinner, hbuilt⟩ := hbuilt
      rw [extend_literal, closed_eq_some_iff] at hinner
      rw [closed_eq_some_iff] at hbuilt
      obtain ⟨-, rfl⟩ := hinner
      obtain ⟨-, rfl⟩ := hbuilt
      rw [Extent.fits_iff] at hforward
      simp only [Built.joined, Bool.false_eq_true, if_false, Extent.bytes_push, hlead] at hforward
      omega
    · cases hforward
  · intro h
    have hcharge : chargeAll [.literal text] + 208 ≤ Extent.limit := by
      simp only [chargeAll, charge, List.map_cons, List.map_nil, List.sum_cons, List.sum_nil]
      omega
    exact fits_inSequence (by simp [isPlain]) hcharge

end Pattern

end DocQuery
