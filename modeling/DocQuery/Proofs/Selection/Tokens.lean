import DocQuery.Proofs.Outcome
import DocQuery.Proofs.Path.Text
import DocQuery.Selection.Reader
import Mathlib.Data.List.SplitBy

/-!
# The tokens of a text

A text falls into *pieces*: its longest runs of key characters, and each other character alone.  The
reader goes through it from left to right with the key that is being read, but what it finds can be
told from the pieces (`tokens_eq_ok_iff`): it fails at a character that may not stand in a selection and
at a key with an empty part, and else its tokens are the pieces that are no separators.
-/

namespace DocQuery.Selection

/-! ### Pieces and tokens -/

/-- The pieces of a text: its longest runs of characters of keys, and each other character alone. -/
def pieces (cs : List Char) : List (List Char) :=
  cs.splitBy fun a b => isKeyChar a && isKeyChar b

/-- The token that a piece is, if it is no separator. -/
def Token.ofPiece? : List Char → Option Token
  | [] => none
  | c :: rest =>
    if isKeyChar c then some (.key (String.ofList (c :: rest)))
    else if c = '\x7b' then some .openGroup
    else if c = '\x7d' then some .closeGroup
    else none

/-- The tokens among the pieces of a text. -/
def tokensIn (cs : List Char) : List Token := (pieces cs).filterMap Token.ofPiece?

/-- A character that may stand in a selection. -/
def MayStand (c : Char) : Prop :=
  Text.isBlank c ∨ c = ',' ∨ c = '\x7b' ∨ c = '\x7d' ∨ Text.isAlphanumeric c ∨ c = '_' ∨ c = '.'

/-- No run of key characters has an empty part before, between or after its points. -/
def PartsNamed (cs : List Char) : Prop :=
  ∀ piece ∈ pieces cs, (∀ c ∈ piece, isKeyChar c) → ∀ part ∈ piece.splitOn '.', part ≠ []

/-! ### Cutting a text -/

theorem mayStand_iff {c : Char} :
    MayStand c ↔ isKeyChar c = true ∨ isSeparator c = true ∨ c = '\x7b' ∨ c = '\x7d' := by
  simp only [MayStand, isKeyChar, isSeparator, Bool.or_eq_true, decide_eq_true_iff]
  tauto

theorem pieces_of_run {run : List Char} (hrun : ∀ c ∈ run, isKeyChar c = true) (hne : run ≠ []) :
    pieces run = [run] := by
  refine List.splitBy_of_isChain hne (List.isChain_iff_forall_rel_of_append_cons_cons.2 ?_)
  rintro a b before after rfl
  simp [hrun a (by simp), hrun b (by simp)]

/-- A character that belongs to no key parts the pieces in front of it from those behind it. -/
theorem pieces_append_cons {c : Char} (hc : isKeyChar c = false) (front rest : List Char) :
    pieces (front ++ c :: rest) = pieces front ++ [c] :: pieces rest := by
  have hrest : pieces ([c] ++ rest) = pieces [c] ++ pieces rest := by
    refine List.splitBy_append ?_
    simp [hc]
  have hfront : pieces (front ++ c :: rest) = pieces front ++ pieces (c :: rest) := by
    refine List.splitBy_append_cons rest ?_
    simp [hc]
  rw [hfront, ← List.singleton_append, hrest]
  rfl

theorem partsNamed_append_cons {c : Char} (hc : isKeyChar c = false) {front rest : List Char} :
    PartsNamed (front ++ c :: rest) ↔ PartsNamed front ∧ PartsNamed rest := by
  have hself : (∀ c' ∈ [c], isKeyChar c' = true) → ∀ part ∈ [c].splitOn '.', part ≠ [] := by
    simp [hc]
  rw [PartsNamed, pieces_append_cons hc, List.forall_mem_append, List.forall_mem_cons]
  exact and_congr_right fun _ => and_iff_right hself

theorem tokensIn_append_cons {c : Char} (hc : isKeyChar c = false) (front rest : List Char) :
    tokensIn (front ++ c :: rest) =
      tokensIn front ++ (Token.ofPiece? [c]).toList ++ tokensIn rest := by
  rw [tokensIn, pieces_append_cons hc, List.filterMap_append, List.filterMap_cons]
  cases Token.ofPiece? [c] <;> simp [tokensIn]

theorem contains_empty_ofText_iff (cs : List Char) :
    (Path.ofText (String.ofList cs)).contains "" = true ↔ [] ∈ cs.splitOn '.' := by
  rw [List.contains_iff_mem, Path.ofText, String.toList_ofList, List.mem_map]
  constructor
  · rintro ⟨part, hpart, hnil⟩
    obtain rfl : part = [] := by simpa using congrArg String.toList hnil
    exact hpart
  · exact fun h => ⟨[], h, rfl⟩

theorem partsNamed_of_run {run : List Char} (hrun : ∀ c ∈ run, isKeyChar c = true) (hne : run ≠ []) :
    PartsNamed run ↔ [] ∉ run.splitOn '.' := by
  rw [PartsNamed, pieces_of_run hrun hne, List.forall_mem_singleton]
  constructor
  · exact fun h hmem => h hrun [] hmem rfl
  · rintro h - part hpart rfl
    exact h hpart

theorem tokensIn_of_run {run : List Char} (hrun : ∀ c ∈ run, isKeyChar c = true) (hne : run ≠ []) :
    tokensIn run = [.key (String.ofList run)] := by
  rw [tokensIn, pieces_of_run hrun hne]
  obtain ⟨first, rest, rfl⟩ := List.exists_cons_of_ne_nil hne
  simp [Token.ofPiece?, hrun first List.mem_cons_self]

theorem finishKey_eq_ok_iff {run : List Char} (hrun : ∀ c ∈ run, isKeyChar c = true)
    {done : List Token} :
    finishKey run = .ok done ↔ PartsNamed run.reverse ∧ done = tokensIn run.reverse := by
  by_cases hne : run = []
  · subst hne
    have hnamed : PartsNamed [] := fun piece hpiece => absurd hpiece List.not_mem_nil
    have htokens : tokensIn [] = [] := rfl
    rw [finishKey, List.reverse_nil, htokens, and_iff_right hnamed, Except.ok.injEq, eq_comm]
  · have hreverse : ∀ c ∈ run.reverse, isKeyChar c = true := by simpa using hrun
    have hempty := contains_empty_ofText_iff run.reverse
    rw [partsNamed_of_run hreverse (by simpa using hne), tokensIn_of_run hreverse (by simpa using hne)]
    unfold finishKey
    split
    · exact absurd rfl hne
    · dsimp only
      split
      · next hcontains => simp [hempty.1 hcontains]
      · next hcontains => simp [mt hempty.2 hcontains, eq_comm]

theorem ofPiece?_blank {c : Char} (hc : isKeyChar c = false) (hopen : c ≠ '\x7b')
    (hclose : c ≠ '\x7d') : Token.ofPiece? [c] = none := by
  simp [Token.ofPiece?, hc, hopen, hclose]

/-- Behind a key, one more character is cut off, if it may stand there. -/
theorem tokensFrom_cons_eq_ok_iff {c : Char} (hc : isKeyChar c = false) {rest run : List Char}
    {offset : Nat} {done : List Token} :
    tokensFrom offset run (c :: rest) = .ok done ↔
      MayStand c ∧ ∃ first, finishKey run = .ok first ∧
        ∃ more, tokensFrom (offset + c.utf8Size) [] rest = .ok more ∧
          done = first ++ (Token.ofPiece? [c]).toList ++ more := by
  have hkey : ¬isKeyChar c = true := by simp [hc]
  rw [tokensFrom, if_neg hkey, Outcome.bind_eq_ok_iff, mayStand_iff, or_iff_right hkey]
  by_cases hopen : c = '\x7b'
  · subst hopen
    have hpiece : Token.ofPiece? ['\x7b'] = some .openGroup := by decide
    simp [Outcome.bind_eq_ok_iff, Outcome.ok_bind, hpiece, @eq_comm _ done]
  · by_cases hclose : c = '\x7d'
    · subst hclose
      have hpiece : Token.ofPiece? ['\x7d'] = some .closeGroup := by decide
      simp [Outcome.bind_eq_ok_iff, Outcome.ok_bind, hpiece, @eq_comm _ done]
    · have hpiece := ofPiece?_blank hc hopen hclose
      by_cases hblank : isSeparator c = true
      · simp [Outcome.bind_eq_ok_iff, Outcome.ok_bind, hpiece, hopen, hclose, hblank, @eq_comm _ done]
      · simp [Outcome.bind_eq_ok_iff, hopen, hclose, hblank]

/-- Cutting a text into tokens succeeds if only characters of selections stand in it and its keys have
no empty part; then the tokens are those among its pieces. -/
theorem tokensFrom_eq_ok_iff {cs : List Char} : ∀ {offset : Nat} {run : List Char} {done : List Token},
    (∀ c ∈ run, isKeyChar c = true) →
      (tokensFrom offset run cs = .ok done ↔
        (∀ c ∈ cs, MayStand c) ∧ PartsNamed (run.reverse ++ cs) ∧ done = tokensIn (run.reverse ++ cs)) := by
  induction cs with
  | nil =>
    intro offset run done hrun
    rw [tokensFrom, finishKey_eq_ok_iff hrun]
    simp
  | cons c rest ih =>
    intro offset run done hrun
    rw [List.forall_mem_cons]
    cases hc : isKeyChar c with
    | true =>
      -- the key goes on
      have hlong : (c :: run).reverse ++ rest = run.reverse ++ c :: rest := by simp
      have hmay : MayStand c := mayStand_iff.2 (.inl hc)
      rw [tokensFrom, if_pos hc, ih (List.forall_mem_cons.2 ⟨hc, hrun⟩), hlong, and_iff_right hmay]
    | false =>
      rw [tokensFrom_cons_eq_ok_iff hc, partsNamed_append_cons hc, tokensIn_append_cons hc]
      simp only [finishKey_eq_ok_iff hrun, ih (List.forall_mem_nil _), List.reverse_nil, List.nil_append]
      constructor
      · rintro ⟨hmay, _, ⟨hfirst, rfl⟩, _, ⟨hrest, hparts, rfl⟩, rfl⟩
        exact ⟨⟨hmay, hrest⟩, ⟨hfirst, hparts⟩, rfl⟩
      · rintro ⟨⟨hmay, hrest⟩, ⟨hfirst, hparts⟩, rfl⟩
        exact ⟨hmay, _, ⟨hfirst, rfl⟩, _, ⟨hrest, hparts, rfl⟩, rfl⟩

theorem tokens_eq_ok_iff {s : String} {done : List Token} :
    tokens s = .ok done ↔
      (∀ c ∈ s.toList, MayStand c) ∧ PartsNamed s.toList ∧ done = tokensIn s.toList :=
  tokensFrom_eq_ok_iff (List.forall_mem_nil _)

/-! ### Keys -/

/-- A key that can be written: a run of key characters without an empty part. -/
def IsKey (name : String) : Prop :=
  (∀ c ∈ name.toList, isKeyChar c = true) ∧ ∀ part ∈ Path.ofText name, part ≠ ""

theorem isKeyChar_of_mem_piece {c : Char} {rest : List Char} (hc : isKeyChar c = true)
    (h : (c :: rest).IsChain fun a b => isKeyChar a && isKeyChar b) :
    ∀ c' ∈ c :: rest, isKeyChar c' = true := by
  induction rest generalizing c with
  | nil => simpa using hc
  | cons next rest ih =>
    obtain ⟨hnext, hrest⟩ := List.isChain_cons_cons.1 h
    rw [Bool.and_eq_true] at hnext
    exact List.forall_mem_cons.2 ⟨hc, ih hnext.2 hrest⟩

/-- The keys among the tokens of a text can be written. -/
theorem isKey_of_mem_tokens {s : String} {list : List Token} (h : tokens s = .ok list) {name : String}
    (hname : .key name ∈ list) : IsKey name := by
  obtain ⟨-, hparts, rfl⟩ := tokens_eq_ok_iff.1 h
  obtain ⟨piece, hpiece, hkey⟩ := List.mem_filterMap.1 hname
  cases piece with
  | nil => cases hkey
  | cons c rest =>
    rw [Token.ofPiece?] at hkey
    split at hkey
    · next hc =>
      obtain rfl := Token.key.inj (Option.some.inj hkey)
      have hrun := isKeyChar_of_mem_piece hc (List.isChain_of_mem_splitBy hpiece)
      refine ⟨by simpa using hrun, fun part hpart hempty => ?_⟩
      subst hempty
      have hnil := (contains_empty_ofText_iff _).1 (List.contains_iff_mem.2 hpart)
      exact hparts _ hpiece hrun [] hnil rfl
    · split at hkey
      · cases hkey
      · split at hkey <;> cases hkey

end DocQuery.Selection
