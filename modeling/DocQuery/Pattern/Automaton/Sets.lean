import DocQuery.Pattern.Automaton.Extent
import DocQuery.Text.Encoding
import Std.Data.HashMap

/-!
# Automata of sets

An automaton goes over the bytes of a character one by one. States that do the same are shared, as
far as they are remembered: what a state does gives a slot, and a slot remembers the state that was
built last.
-/

namespace DocQuery

open Text

/-- What a state does, in numbers. -/
abbrev StateKey := List Nat

/-- The slot of a state. -/
def StateKey.slot (slots : Nat) (key : StateKey) : Nat :=
  let mixed := key.foldl (fun (h : UInt64) n => (h ^^^ n.toUInt64) * 1099511628211)
    14695981039346656037
  mixed.toNat % slots

/-- An automaton in which states are shared. -/
structure SharedStates where
  extent : Extent
  /-- the state that each slot remembers -/
  known : Std.HashMap Nat (StateKey × Nat)

/-- A new state, which its slot remembers, and its number. -/
def SharedStates.add (slot : Nat) (key : StateKey) (built : Extent → Extent)
    (shared : SharedStates) : Nat × SharedStates :=
  let state := shared.extent.states
  (state, ⟨built shared.extent, shared.known.insert slot (key, state)⟩)

/-- The number of a state that goes over bytes; it is built if it is not remembered. -/
def SharedStates.find (slots : Nat) (key : StateKey) (built : Extent → Extent)
    (shared : SharedStates) : Nat × SharedStates :=
  let slot := key.slot slots
  match shared.known[slot]? with
  | some (other, state) =>
    if other = key then (state, shared) else shared.add slot key built
  | none => shared.add slot key built

/-! ### Forward -/

/-- The state from which some byte sequences lead to `target`. Those that begin alike stand
together; none has more than `length` bytes. -/
def forwardState (target : Nat) : Nat → List (List ByteSpan) → SharedStates → Nat × SharedStates
  | 0, _, shared => (target, shared)
  | length + 1, sequences, shared =>
    let groups := sequences.splitBy fun a b => a.head? == b.head?
    let (key, shared) := groups.foldl
      (fun (key, shared) group =>
        match group with
        | ((first, last) :: rest) :: _ =>
          let (next, shared) :=
            if rest.isEmpty then (target, shared)
            else forwardState target length (group.map List.tail) shared
          (key ++ [first, last, next], shared)
        | _ => (key, shared))
      (([] : StateKey), shared)
    shared.find 10000 key fun extent => extent.pushSpans groups.length

/-! ### Backward -/

/-- The automaton with one more byte sequence, which leads from `target` back to a common state. -/
def addBackward (target : Nat) (shared : SharedStates) (sequence : List ByteSpan) : SharedStates :=
  let (_, shared) := sequence.foldl
    (fun (next, shared) (first, last) =>
      shared.find 1000 [next, first, last] fun extent => extent.push 1)
    (target, shared)
  { shared with extent := shared.extent.branch 1 }

/-- The byte sequences of a set. -/
def CharSet.byteSpans (chars : CharSet) : List (List ByteSpan) :=
  (Ranges.spans chars).flatMap fun (first, last) => Text.byteSpans first last

/-- The extent with the automaton of a set, which reads a text forward or backward. -/
def CharSet.extend (forward : Bool) (chars : CharSet) (extent : Extent) : Extent :=
  if chars.isAscii then (extent.push 1).pushSpans (Ranges.spans chars).length
  else if forward then
    (forwardState extent.states 4 chars.byteSpans ⟨extent.push 1, ∅⟩).2.extent
  else
    (chars.byteSpans.foldl (addBackward (extent.states + 1)) ⟨extent.push 2, ∅⟩).extent

end DocQuery
