import RepoManifest.Text.Utf8
import RepoManifest.Yaml.Meaning

/-!
# Documents

The value that the bytes of a document stand for. Everything that makes a document unreadable, from
its encoding to the types of its scalars, has one outcome: there is no value.
-/

namespace RepoManifest.Yaml

/-- A character that a document may hold. -/
def isPrintable (c : Char) : Bool :=
  let n := c.toNat
  n == 0x09 || n == 0x0a || n == 0x0d || 0x20 ≤ n && n ≤ 0x7e || n == 0x85 ||
    0xa0 ≤ n && n ≤ 0xd7ff || 0xe000 ≤ n && n ≤ 0xfffd || 0x10000 ≤ n

/-- The units of sixteen bits that bytes make up, in one of the two orders. -/
def units16? ( isBigEndian : Bool) : List UInt8 → Option (List Nat)
  | [] => some []
  | a :: b :: rest =>
    let unit := if isBigEndian then 256 * a.toNat + b.toNat else 256 * b.toNat + a.toNat
    (units16? isBigEndian rest).map (unit :: ·)
  | [_] => none

/-- The characters of a document. A mark at its start says that units have sixteen bits. -/
def decode? : List UInt8 → Option (List Char)
  | 0xff :: 0xfe :: rest => do charOfCodes? (0xfeff :: (← units16? false rest))
  | 0xfe :: 0xff :: rest => do charOfCodes? (0xfeff :: (← units16? true rest))
  | bytes => (Text.decodeUtf8 bytes).toOption.map String.toList

/-- The value of the text of a document; an empty one is nothing. -/
def valueOfText? (text : List Char) : Option Value := do
  if !text.all isPrintable then none
  let (tokens, version) ← Token.ofText? text
  match ← Node.ofTokens? version tokens with
  | some node => node.value? version
  | none => some .null

/-- The value of a document. -/
def parse? (bytes : List UInt8) : Option Value := do valueOfText? (← decode? bytes)

end RepoManifest.Yaml
