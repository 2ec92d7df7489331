import DocQuery.Pattern.Automaton.Extent

/-!
# Automata of words

For a choice between words an automaton branches where they differ, and not where they begin alike.
A word that ends where another one goes on separates those in front of it from those behind, since
the first of several words is preferred.
-/

namespace DocQuery

/-- A word as bytes. -/
abbrev Word := List UInt8

namespace Words

/-- The words in front of each word without bytes, and those behind the last one. -/
def segments : List Word → List (List Word)
  | [] => [[]]
  | [] :: rest => [] :: segments rest
  | word :: rest =>
    match segments rest with
    | first :: others => (word :: first) :: others
    | [] => [[word]]

/-- The words without the first bytes of those that begin with `byte`. -/
def behind (byte : UInt8) (words : List Word) : List Word :=
  words.filterMap fun word =>
    match word with
    | first :: rest => if first = byte then some rest else none
    | [] => none

/-- Words without bytes at the beginning say the same as one of them. -/
def simplified : List Word → List Word
  | [] :: rest => [] :: rest.dropWhile List.isEmpty
  | words => words

/-- The extent with the states of some words, one of which has bytes. None has more than `length`
of them. -/
def extend : Nat → List Word → Extent → Extent
  | 0, _, extent => extent
  | length + 1, words, extent =>
    let parts := segments (simplified words)
    let extent := parts.foldl
      (fun extent part =>
        let firsts := (part.filterMap List.head?).eraseDups
        let extent := firsts.foldl
          (fun extent byte =>
            let words := behind byte part
            if words.all List.isEmpty then extent else extend length words extent)
          extent
        match firsts with
        | [] => extent
        | [_] => (extent.push 1).branch 1
        | firsts => (extent.pushSpans firsts.length).branch 1)
      extent
    (extent.push 1).branch (parts.length - 1)

end Words

end DocQuery
