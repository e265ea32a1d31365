/-!
# Powers and machine words

The powers that number formats are made of, and the integers that a word of 64 bits holds.
-/

namespace RepoManifest

/-- A power of two. -/
def twoTo (n : Nat) : Nat := Nat.pow 2 n

/-- A power of ten. -/
def tenTo (n : Nat) : Nat := Nat.pow 10 n

/-- Whether a word of 64 bits, one of them for the sign, holds an integer. -/
def fitsWord (n : Int) : Bool := -(twoTo 63 : Int) ≤ n && n < (twoTo 63 : Int)

end RepoManifest
