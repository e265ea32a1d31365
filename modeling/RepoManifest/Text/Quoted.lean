import RepoManifest.Text.Printable

/-!
# Quoted text

A quoted text stands between single quotes, or between double quotes if it holds a single quote and
no double quote. The quote in use and the backslash are escaped; other characters are written as
themselves when printable and by an escape of fixed width otherwise, so a quoted text never holds a
line break. Byte strings are quoted in the same way, byte by byte.
-/

namespace RepoManifest.Text

/-- The last `width` hexadecimal digits of `n`, in lower case. -/
def hexDigits (width n : Nat) : List Char :=
  let digits := Nat.toDigits 16 n
  List.replicate (width - digits.length) '0' ++ digits

/-- The quote to use for a text: double quotes only if they save escapes. -/
def quoteFor (text : List Char) : Char :=
  if text.contains '\'' && !text.contains '"' then '"' else '\''

/-- One character inside quotes. -/
def escapeChar (quote c : Char) : List Char :=
  if c = quote ∨ c = '\\' then ['\\', c]
  else if c = '\n' then ['\\', 'n']
  else if c = '\r' then ['\\', 'r']
  else if c = '\t' then ['\\', 't']
  else if isPrintable c then [c]
  else if c.toNat < 0x100 then '\\' :: 'x' :: hexDigits 2 c.toNat
  else if c.toNat < 0x10000 then '\\' :: 'u' :: hexDigits 4 c.toNat
  else '\\' :: 'U' :: hexDigits 8 c.toNat

/-- Quoted text. -/
def quote (text : String) : String :=
  let chars := text.toList
  let q := quoteFor chars
  String.ofList (q :: (chars.flatMap (escapeChar q) ++ [q]))

/-- Quoted bytes: a marker, then the bytes as characters; only ASCII is printable. -/
def quoteBytes (bytes : List UInt8) : String :=
  let chars := bytes.map fun b ↦ Char.ofNat b.toNat
  let q := quoteFor chars
  let escape (c : Char) :=
    if c.toNat < 0x7f then escapeChar q c else '\\' :: 'x' :: hexDigits 2 c.toNat
  String.ofList ('b' :: q :: (chars.flatMap escape ++ [q]))

end RepoManifest.Text
