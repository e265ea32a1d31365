import RepoManifest.Number.Power

/-!
# Binary floating-point numbers

A `Double` is a number of the 64-bit binary format, held by its value: a sign, a mantissa of at
most 53 bits and a power of two. Rounding is exact arithmetic on natural numbers, so statements
about these numbers are statements about `Nat` and `Int`.
-/

namespace RepoManifest

/-- A number of the 64-bit binary format. `finite s m e` stands for `±m · 2 ^ e`; the constructors
below keep it canonical: `m < 2 ^ 53`, `-1074 ≤ e ≤ 971`, and `2 ^ 52 ≤ m` unless `e = -1074`. -/
inductive Double where
  | nan
  | infinite (negative : Bool)
  | finite (negative : Bool) (mantissa : Nat) (exponent : Int)
  deriving DecidableEq, Repr, Inhabited

namespace Double

/-- The quotient `num / den` to the nearest integer, a half going to the even neighbour. -/
def roundHalfEven (num den : Nat) : Nat :=
  let quotient := num / den
  let rest := num % den
  if 2 * rest < den then quotient
  else if den < 2 * rest then quotient + 1
  else quotient + quotient % 2

/-- A quotient equal to `num / den / 2 ^ e`, as numerator and denominator. -/
def scaleByTwo (num den : Nat) (e : Int) : Nat × Nat :=
  if 0 ≤ e then (num, den * twoTo e.toNat) else (num * twoTo (-e).toNat, den)

/-- The number nearest to `±num / den`, a tie going to the even mantissa. Quotients beyond the
largest finite number become infinite. -/
def ofRatio (negative : Bool) (num den : Nat) : Double :=
  if num = 0 then .finite negative 0 (-1074)
  else
    let guess := max ((num.log2 : Int) - den.log2 - 52) (-1074)
    let (n, d) := scaleByTwo num den guess
    let e := if n < d * twoTo 52 ∧ -1074 < guess then guess - 1 else guess
    let (n, d) := scaleByTwo num den e
    let m := roundHalfEven n d
    let (m, e) := if m = twoTo 53 then (twoTo 52, e + 1) else (m, e)
    if 971 < e then .infinite negative else .finite negative m e

/-- The number of decimal digits of `n`; zero has one. -/
def digitCount (n : Nat) : Nat := (Nat.toDigits 10 n).length

/-- The number nearest to `±digits · 10 ^ e`. Exponents far outside the format are decided without
computing the power. -/
def ofDecimal (negative : Bool) (digits : Nat) (e : Int) : Double :=
  if digits = 0 then .finite negative 0 (-1074)
  else
    let magnitude := digitCount digits + e
    if 400 < magnitude then .infinite negative
    else if magnitude < -400 then .finite negative 0 (-1074)
    else if 0 ≤ e then ofRatio negative (digits * tenTo e.toNat) 1
    else ofRatio negative digits (tenTo (-e).toNat)

/-- Numeric equality: a NaN equals nothing, and the two zeros are equal. -/
def equal : Double → Double → Bool
  | .infinite s, .infinite t => s == t
  | .finite s m e, .finite t n f => (m == 0 && n == 0) || (s == t && m == n && e == f)
  | _, _ => false

/-- The integer that the number equals, if it equals one. -/
def integer? : Double → Option Int
  | .finite s m e =>
    let signed (n : Nat) : Int := if s then -(n : Int) else n
    if 0 ≤ e then some (signed (m * twoTo e.toNat))
    else if m % twoTo (-e).toNat = 0 then some (signed (m / twoTo (-e).toNat))
    else none
  | _ => none

/-- Zero of either sign. -/
def isZero : Double → Bool
  | .finite _ 0 _ => true
  | _ => false

/-- The number with the other sign. -/
def negated : Double → Double
  | .nan => .nan
  | .infinite s => .infinite !s
  | .finite s m e => .finite (!s) m e

/-- A finite number as a multiple of the least positive one. -/
def units? : Double → Option Int
  | .finite s m e =>
    let n := m * twoTo (e + 1074).toNat
    some (if s then -(n : Int) else n)
  | _ => none

/-- The number nearest to a multiple of the least positive one. -/
def ofUnits (n : Int) : Double := ofRatio (n < 0) n.natAbs (twoTo 1074)

end Double
end RepoManifest
