import RepoManifest.Number.Double
import RepoManifest.Text.Blank

/-!
# Reading decimal numbers

The written forms of a number: an optional sign, digits in which single underscores may separate
digits, an optional fraction and exponent, or one of the words for the infinities and NaN.
-/

namespace RepoManifest

/-- The value of a run of decimal digits, most significant first. -/
def decimalValue (digits : List Char) : Nat :=
  digits.foldl (fun n c ↦ 10 * n + (c.toNat - '0'.toNat)) 0

/-- Delete the underscores that stand between two digits; any other underscore makes the text
unreadable. -/
def dropSeparators? (text : List Char) : Option (List Char) :=
  go none text
where
  go (previous : Option Char) : List Char → Option (List Char)
    | [] => some []
    | '_' :: rest =>
      match previous, rest.head? with
      | some p, some n => if p.isDigit && n.isDigit then go (some '_') rest else none
      | _, _ => none
    | c :: rest => (go (some c) rest).map (c :: ·)

/-- Split off a leading sign; the flag is set for a minus. -/
def splitSign : List Char → Bool × List Char
  | '-' :: rest => (true, rest)
  | '+' :: rest => (false, rest)
  | rest => (false, rest)

/-- The value of a digit or letter in bases up to 36. -/
def digitValue? (c : Char) : Option Nat :=
  if c.isDigit then some (c.toNat - '0'.toNat)
  else if c.isAlpha then some (c.toLower.toNat - 'a'.toNat + 10)
  else none

/-- The letter that may stand after a zero in front of the digits of a base. -/
def baseMark? (base : Nat) : Option Char :=
  if base = 2 then some 'b' else if base = 8 then some 'o' else if base = 16 then some 'x' else none

/-- The most decimal digits that are read. -/
def maxDigits : Nat := 4300

/-- Read a whole number without a sign. -/
def readNatural? (base : Nat) (text : List Char) : Option Nat :=
  let digits := match text with
    | '0' :: c :: rest => if baseMark? base = some c.toLower then rest else text
    | _ => text
  if digits.isEmpty || base == 10 && maxDigits < digits.length then none
  else digits.foldlM (fun n c ↦ do
    let d ← digitValue? c
    if d < base then some (base * n + d) else none) 0

/-- Read a whole number with an optional sign; blanks around it are ignored. -/
def readInteger? (base : Nat) (text : List Char) : Option Int :=
  let trimmed := ((text.dropWhile Text.isBlank).reverse.dropWhile Text.isBlank).reverse
  let (negative, digits) := splitSign trimmed
  (readNatural? base digits).map fun n ↦ if negative then -(n : Int) else n

namespace Double

/-- A decimal exponent: nothing, or `e` with an optional sign and at least one digit. -/
def readExponent? : List Char → Option Int
  | [] => some 0
  | c :: rest =>
    let (negative, digits) := splitSign rest
    if c.toLower = 'e' ∧ ¬ digits.isEmpty ∧ digits.all Char.isDigit then
      let n : Int := decimalValue digits
      some (if negative then -n else n)
    else none

/-- Read an unsigned number without separators. -/
def readMagnitude? (negative : Bool) (text : List Char) : Option Double :=
  let word := String.ofList (text.map Char.toLower)
  if word = "nan" then some .nan
  else if word = "inf" ∨ word = "infinity" then some (.infinite negative)
  else
    let whole := text.takeWhile Char.isDigit
    let rest := text.dropWhile Char.isDigit
    let (fraction, rest) := match rest with
      | '.' :: rest => (rest.takeWhile Char.isDigit, rest.dropWhile Char.isDigit)
      | rest => ([], rest)
    if whole.isEmpty ∧ fraction.isEmpty then none
    else (readExponent? rest).map fun e ↦
      ofDecimal negative (decimalValue (whole ++ fraction)) (e - fraction.length)

/-- Read a number; blanks around it are ignored. -/
def read? (text : String) : Option Double := do
  let trimmed := text.trimAscii.copy.toList
  let bare ← dropSeparators? trimmed
  let (negative, magnitude) := splitSign bare
  readMagnitude? negative magnitude

end Double
end RepoManifest
