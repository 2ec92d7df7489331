/-!
# Byte sequences of ranges

A character is stored as one to four bytes: a first byte that says how many follow, and bytes of
six bits each. `Text.byteSpans` splits a range of code points into ranges of byte sequences, in each
of which every place holds one span of bytes.
-/

namespace DocQuery.Text

/-- The first and the last byte of a span. -/
abbrev ByteSpan := Nat × Nat

/-- The sequences for the numbers from `first` to `last`: `lead` is added to the first byte, and a
number of further bytes follow. -/
def spansFrom (lead : Nat) : Nat → Nat → Nat → List (List ByteSpan)
  | 0, first, last => [[(lead + first, lead + last)]]
  | further + 1, first, last =>
    let block := 64 ^ (further + 1)
    let under (n first last : Nat) : List (List ByteSpan) :=
      (spansFrom 0x80 further first last).map ((lead + n, lead + n) :: ·)
    let low := first / block
    let high := last / block
    if low = high then under low (first % block) (last % block)
    else
      let isLowWhole := first % block = 0
      let isHighWhole := last % block = block - 1
      let start := if isLowWhole then low else low + 1
      let stop := if isHighWhole then high + 1 else high
      (if isLowWhole then [] else under low (first % block) (block - 1)) ++
        (if start < stop then
          [(lead + start, lead + (stop - 1)) :: List.replicate (further + 1) (0x80, 0xBF)]
        else []) ++
        (if isHighWhole then [] else under high 0 (last % block))

/-- A range of code points that are stored alike. -/
structure EncodingForm where
  first : Nat
  last : Nat
  /-- what is added to the first byte -/
  lead : Nat
  /-- how many bytes follow -/
  further : Nat

/-- The ways to store a code point; surrogates are not stored. -/
def encodingForms : List EncodingForm :=
  [⟨0, 0x7F, 0, 0⟩, ⟨0x80, 0x7FF, 0xC0, 1⟩, ⟨0x800, 0xD7FF, 0xE0, 2⟩, ⟨0xE000, 0xFFFF, 0xE0, 2⟩,
    ⟨0x10000, 0x10FFFF, 0xF0, 3⟩]

/-- The byte sequences of the code points from `first` to `last`, in ascending order. -/
def byteSpans (first last : Nat) : List (List ByteSpan) :=
  encodingForms.flatMap fun form =>
    let first := max first form.first
    let last := min last form.last
    if first ≤ last then spansFrom form.lead form.further first last else []

end DocQuery.Text
