import RepoManifest.Number.Double

/-!
# Shortest decimal text

The text of a floating-point number has the fewest digits that read back as the number, and among
those the nearest. `Decimal` is the digits found, `DecimalLayout` says where the point goes.
-/

namespace RepoManifest

/-- The number `0.d₁d₂… · 10 ^ point`, by its digits, most significant first. -/
structure Decimal where
  digits : List Char
  point : Int
  deriving DecidableEq, Repr

namespace Decimal

/-- The decimal `n · 10 ^ e` without trailing zeros. -/
def ofNat (n : Nat) (e : Int) : Decimal :=
  let all := Nat.toDigits 10 n
  { digits := (all.reverse.dropWhile (· == '0')).reverse, point := all.length + e }

end Decimal

/-- How a decimal is written: the points (as in `Decimal.point`) that are written without an
exponent, and the least number of exponent digits. -/
structure DecimalLayout where
  lowestPoint : Int
  highestPoint : Int
  exponentDigits : Nat

namespace DecimalLayout

/-- From `0.0001` up to below `10 ^ 16` a number is written with a point only; elsewhere it has a
signed exponent of at least two digits. -/
def standard : DecimalLayout := ⟨-3, 16, 2⟩

/-- The exponent part: sign, then the digits padded with zeros. -/
def exponentText (layout : DecimalLayout) (e : Int) : List Char :=
  let digits := Nat.toDigits 10 e.natAbs
  'e' :: (if e < 0 then '-' else '+') ::
    (List.replicate (layout.exponentDigits - digits.length) '0' ++ digits)

/-- Write a decimal. A whole number written without an exponent ends in `.0`. -/
def render (layout : DecimalLayout) (d : Decimal) : List Char :=
  if layout.lowestPoint ≤ d.point ∧ d.point ≤ layout.highestPoint then
    if d.point ≤ 0 then
      '0' :: '.' :: (List.replicate (-d.point).toNat '0' ++ d.digits)
    else
      let whole := d.point.toNat
      let padded := d.digits ++ List.replicate (whole - d.digits.length) '0'
      let fraction := padded.drop whole
      padded.take whole ++ '.' :: (if fraction.isEmpty then ['0'] else fraction)
  else
    let exponent := layout.exponentText (d.point - 1)
    match d.digits with
    | [] => exponent
    | first :: [] => first :: exponent
    | first :: rest => first :: '.' :: (rest ++ exponent)

end DecimalLayout

namespace Double

/-- The point of the decimals equal to `num / den`: the least `k` with `num / den < 10 ^ k`. -/
def decimalPoint (num den : Nat) : Int :=
  let k : Int := (digitCount num : Int) - digitCount den
  let below :=
    if 0 ≤ k then decide (num < den * tenTo k.toNat) else decide (num * tenTo (-k).toNat < den)
  if below then k else k + 1

/-- Of the two neighbours of `num / den` on the grid of multiples of `10 ^ e`, the nearest one that
reads back as `d`. Of two equally near ones the even one is taken. -/
def neighbour? (d : Double) (num den : Nat) (e : Int) : Option Nat :=
  let (n, m) := if 0 ≤ e then (num, den * tenTo e.toNat) else (num * tenTo (-e).toNat, den)
  let low := n / m
  let reads (c : Nat) : Bool := c ≠ 0 && ofDecimal false c e == d
  let nearest := roundHalfEven n m
  let other := if nearest = low then low + 1 else low
  [nearest, other].find? reads

/-- The shortest decimal that reads back as `m · 2 ^ e`, for a positive `m`. -/
def shortest (m : Nat) (e : Int) : Decimal :=
  let (num, den) := if 0 ≤ e then (m * twoTo e.toNat, 1) else (m, twoTo (-e).toNat)
  let point := decimalPoint num den
  let found := (List.range 17).findSome? fun (i : Nat) ↦
    let grid : Int := point - (i + 1)
    (neighbour? (.finite false m e) num den grid).map (Decimal.ofNat · grid)
  found.getD ⟨[], 0⟩

/-- The text of a number. -/
def text : Double → String
  | .nan => "nan"
  | .infinite negative => if negative then "-inf" else "inf"
  | .finite negative m e =>
    let digits := if m = 0 then ['0', '.', '0'] else DecimalLayout.standard.render (shortest m e)
    String.ofList (if negative then '-' :: digits else digits)

end Double
end RepoManifest
