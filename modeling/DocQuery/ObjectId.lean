import DocQuery.Text.Hex

/-!
# Object ids

The name of a document: twelve bytes, written as 24 digits in base sixteen. The first byte weighs
most, so the order of ids is that of their words.
-/

namespace DocQuery

/-- Twelve bytes, as one word. -/
structure ObjectId where
  word : BitVec 96
deriving DecidableEq

namespace ObjectId

/-- The id that a text of exactly 24 digits in base sixteen means. -/
def read (s : String) : Option ObjectId :=
  let digits := s.toList
  if digits.length = 24 then (Text.hexValue? digits).map fun n => ⟨BitVec.ofNat 96 n⟩ else none

def text (id : ObjectId) : String := String.ofList (Text.hexPadded 24 id.word.toNat)

/-- The id that comes a number of steps after another one. -/
def after (id : ObjectId) (steps : Nat) : ObjectId := ⟨id.word + BitVec.ofNat 96 steps⟩

end ObjectId

end DocQuery
