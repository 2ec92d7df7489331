import DocQuery.Pattern.Basic
import DocQuery.Number.Power

/-!
# Extents of automata

A pattern is carried out by an automaton, and the memory for an automaton is limited. `Extent` is
what has been built of one: the number of its states, and the bytes of the lists that states hold.
States are numbered in the order in which they are built.
-/

namespace DocQuery

structure Extent where
  states : Nat
  /-- the bytes of the lists that states hold -/
  lists : Nat

namespace Extent

def zero : Extent := ⟨0, 0⟩

/-- The memory, in bytes. -/
def bytes (extent : Extent) : Nat := 32 * extent.states + extent.lists

/-- The memory that an automaton may take. -/
def limit : Nat := 10 * twoTo 20

def fits (extent : Extent) : Bool := extent.bytes ≤ limit

/-- Some more states without lists. -/
def push (extent : Extent) (count : Nat) : Extent := { extent with states := extent.states + count }

/-- One more state, which goes over a byte from one of some spans. -/
def pushSpans (extent : Extent) (count : Nat) : Extent :=
  ⟨extent.states + 1, extent.lists + 8 * count⟩

/-- Some more ways out of states that have several. -/
def branch (extent : Extent) (count : Nat) : Extent :=
  { extent with lists := extent.lists + 4 * count }

end Extent

end DocQuery
