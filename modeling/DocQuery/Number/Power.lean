/-!
# Powers

The powers of the two bases that numbers are written in. A word of `n` bits is a number below
`twoTo n`.
-/

namespace DocQuery

/-- A power of two. -/
def twoTo (exponent : Nat) : Nat := Nat.pow 2 exponent

/-- A power of ten. -/
def tenTo (exponent : Nat) : Nat := Nat.pow 10 exponent

end DocQuery
