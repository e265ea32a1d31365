/-!
# Binary data as text

Four characters of an alphabet of 64 stand for three bytes. Characters outside the alphabet are
skipped, and what follows complete padding is ignored.
-/

namespace RepoManifest.Text

/-- The place of a character in the alphabet. -/
def sextet? (c : Char) : Option Nat :=
  if c.isUpper then some (c.toNat - 'A'.toNat)
  else if c.isLower then some (c.toNat - 'a'.toNat + 26)
  else if c.isDigit then some (c.toNat - '0'.toNat + 52)
  else if c = '+' then some 62
  else if c = '/' then some 63
  else none

/-- Decode from within a group of four: `place` characters of it are read, and `left` holds their
bits that are not written yet. `pads` counts the padding just before. -/
def decodeGroups (place left pads : Nat) : List Char → Option (List UInt8)
  | [] => if place = 0 then some [] else none
  | c :: rest =>
    if c = '=' then
      if 2 ≤ place ∧ 4 ≤ place + pads + 1 then some []
      else decodeGroups place left (if 2 ≤ place then pads + 1 else pads) rest
    else match sextet? c, place with
      | none, _ => decodeGroups place left pads rest
      | some n, 0 => decodeGroups 1 n 0 rest
      | some n, 1 => (decodeGroups 2 (n % 16) 0 rest).map (UInt8.ofNat (left * 4 + n / 16) :: ·)
      | some n, 2 => (decodeGroups 3 (n % 4) 0 rest).map (UInt8.ofNat (left * 16 + n / 4) :: ·)
      | some n, _ => (decodeGroups 0 0 0 rest).map (UInt8.ofNat (left * 64 + n) :: ·)

/-- The bytes that a text stands for. An incomplete group is refused, and so are characters beyond
ASCII. -/
def decodeBase64? (text : List Char) : Option (List UInt8) :=
  if text.all (·.toNat < 128) then decodeGroups 0 0 0 text else none

end RepoManifest.Text
