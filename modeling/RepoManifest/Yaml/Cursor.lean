/-!
# Positions in a document's text

A cursor is the text that is left to read with the position of its first character. The end of the
text reads as the null character, which no document holds.
-/

namespace RepoManifest.Yaml

/-- The versions of the document format. -/
structure Version where
  major : Nat
  minor : Nat
  deriving DecidableEq, Repr, Inhabited

namespace Version

/-- The version of a document that names none. -/
def standard : Version := ⟨1, 2⟩

/-- The version before the standard one, whose rules differ in places. -/
def legacy : Version := ⟨1, 1⟩

/-- Whether a version is later than the legacy one. -/
def isModern (v : Version) : Bool := 1 < v.major || (v.major == 1 && 1 < v.minor)

end Version

/-- The characters of a line's end, with the end of the text. -/
def endsLine (c : Char) : Bool := c == '\n' || c == '\x00' || c == '\r' || c == '\x85'

/-- A line's end, a blank or a tabulator. -/
def endsWord (c : Char) : Bool := endsLine c || c == ' ' || c == '\t'

/-- A character that breaks a line inside a scalar. -/
def isBreak (c : Char) : Bool :=
  c == '\r' || c == '\n' || c == '\x85' || c == '\u2028' || c == '\u2029'

/-- A break, a blank or the end of the text. -/
def endsHeader (c : Char) : Bool := isBreak c || c == '\x00' || c == ' '

/-- The text that is left, and the position of its first character. -/
structure Cursor where
  rest : List Char
  index : Nat := 0
  line : Nat := 0
  column : Nat := 0
  deriving Repr, Inhabited

namespace Cursor

/-- The first character that is left. -/
def head (c : Cursor) : Char := c.rest.headD '\x00'

/-- The character at a distance from the first one that is left. -/
def peek (c : Cursor) (n : Nat) : Char := c.rest.getD n '\x00'

/-- The position after one character. Line feeds, and carriage returns without one, start a line; a
byte-order mark has no width. -/
def next (c : Cursor) : Cursor :=
  match c.rest with
  | [] => c
  | x :: rest =>
    if x = '\n' ∨ (x = '\r' ∧ rest.head? ≠ some '\n') then ⟨rest, c.index + 1, c.line + 1, 0⟩
    else if x = '\ufeff' then ⟨rest, c.index + 1, c.line, c.column⟩
    else ⟨rest, c.index + 1, c.line, c.column + 1⟩

/-- The position after a number of characters. -/
def skip (c : Cursor) : Nat → Cursor
  | 0 => c
  | n + 1 => c.next.skip n

/-- The characters in front that satisfy a condition, and the position after them. -/
def takeWhile (c : Cursor) (p : Char → Bool) : List Char × Cursor :=
  let taken := c.rest.takeWhile p
  (taken, c.skip taken.length)

/-- The position after the characters in front that satisfy a condition. -/
def skipWhile (c : Cursor) (p : Char → Bool) : Cursor := (c.takeWhile p).2

/-- A line break in front, as it counts in a scalar, and the position after it. -/
def lineBreak? (c : Cursor) : Option (Char × Cursor) :=
  match c.rest with
  | '\r' :: '\n' :: _ => some ('\n', c.skip 2)
  | x :: _ =>
    if x = '\r' ∨ x = '\n' ∨ x = '\x85' then some ('\n', c.next)
    else if x = '\u2028' ∨ x = '\u2029' then some (x, c.next)
    else none
  | [] => none

/-- The position after a line break in front, if there is one. -/
def skipBreak (c : Cursor) : Cursor :=
  match c.lineBreak? with
  | some (_, c) => c
  | none => c

/-- Whether a separator of documents is in front, written with the given character. -/
def atSeparator (c : Cursor) (mark : Char) : Bool :=
  c.rest.take 3 == [mark, mark, mark] && endsWord (c.peek 3)

/-- Whether a separator of documents of either kind is in front. -/
def atAnySeparator (c : Cursor) : Bool := c.atSeparator '-' || c.atSeparator '.'

end Cursor
end RepoManifest.Yaml
