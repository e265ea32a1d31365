import RepoManifest.Yaml.Cursor

/-!
# Block scalars

A block scalar keeps the lines that are indented at least as far as its first one. In the literal
style every line break is kept; in the folded style a break between two lines that start with text
is a blank. The header says what happens to the breaks at the end.
-/

namespace RepoManifest.Yaml

/-- What happens to the line breaks at the end of a block scalar. -/
inductive Chomping
  | strip
  | clip
  | keep
  deriving DecidableEq, Repr

/-- The header of a block scalar. -/
structure BlockHeader where
  chomping : Chomping
  increment : Option Nat
  deriving Repr

/-- The chomping mark in front, and the position after it. -/
def chompingMark (c : Cursor) : Option Chomping × Cursor :=
  if c.head = '+' then (some .keep, c.next)
  else if c.head = '-' then (some .strip, c.next)
  else (none, c)

/-- The indentation mark in front, and the position after it. Zero is refused. -/
def incrementMark (c : Cursor) : Option (Option Nat × Cursor) :=
  if c.head = '0' then none
  else if c.head.isDigit then some (some (c.head.toNat - '0'.toNat), c.next)
  else some (none, c)

/-- Skip blanks, a comment and the end of the line. Anything else is refused. -/
def skipRestOfLine (c : Cursor) : Option Cursor :=
  let c := c.skipWhile (· == ' ')
  let c := if c.head = '#' then c.skipWhile (!endsLine ·) else c
  if endsLine c.head then some c.skipBreak else none

/-- The header of a block scalar, its marks in either order, and the position of the line after
it. -/
def blockHeader? (c : Cursor) : Option (BlockHeader × Cursor) := do
  let (chomping, c) := chompingMark c
  let (increment, c) ← incrementMark c
  let (chomping, c) := if chomping.isSome then (chomping, c) else chompingMark c
  if !endsHeader c.head then none
  let c ← skipRestOfLine c
  some (⟨chomping.getD .clip, increment⟩, c)

/-- The blank lines in front of a block scalar without an indentation mark: their breaks, the
column of the first break and the widest indentation. The fuel is the length of the text. -/
def leadingBreaks : Nat → Cursor → Option Nat → Nat → List Char × Option Nat × Nat × Cursor
  | 0, c, first, widest => ([], first, widest, c)
  | fuel + 1, c, first, widest =>
    if c.head = ' ' then leadingBreaks fuel c.next first (max widest c.next.column)
    else match c.lineBreak? with
      | none => ([], first, widest, c)
      | some (x, after) =>
        let (more, rest) := leadingBreaks fuel after (first.or (some c.column)) widest
        (x :: more, rest)

/-- Skip blanks up to a column. -/
def skipIndent (indent : Nat) (c : Cursor) : Cursor :=
  c.skip (min (indent - c.column) (c.rest.takeWhile (· == ' ')).length)

/-- Blank lines inside a block scalar: their breaks, and the position of the next text. The fuel is
the length of the text. -/
def blockBreaks (indent : Nat) : Nat → Cursor → List Char × Cursor
  | 0, c => ([], skipIndent indent c)
  | fuel + 1, c =>
    let c := skipIndent indent c
    match c.lineBreak? with
    | none => ([], c)
    | some (x, c) =>
      let (more, c) := blockBreaks indent fuel c
      (x :: more, c)

/-- The place where the lines of a block scalar end: the break of the last line, the breaks after
it, and the position after those. -/
structure BlockEnd where
  lastBreak : List Char
  breaks : List Char
  after : Cursor

/-- Whether a line's first character lets the line be folded. -/
def startsText (c : Char) : Bool := c != ' ' && c != '\t'

/-- The lines of a block scalar from column `indent` on. `breaks` stand before the next line. At
the outermost level the scalar stops at a separator of documents. The fuel is the length of the
text. -/
def blockLines (folded outermost : Bool) (indent : Nat) :
    Nat → List Char → List Char → Cursor → List Char × BlockEnd
  | 0, lastBreak, breaks, c => ([], ⟨lastBreak, breaks, c⟩)
  | fuel + 1, lastBreak, breaks, c =>
    if c.column ≠ indent ∨ c.rest.isEmpty then ([], ⟨lastBreak, breaks, c⟩)
    else
      let starts := startsText c.head
      let (line, c) := c.takeWhile (!endsLine ·)
      let (lastBreak, c) := match c.lineBreak? with
        | some (x, c) => ([x], c)
        | none => ([], c)
      let (nextBreaks, c) := blockBreaks indent c.rest.length c
      if outermost && c.column == 0 && c.atAnySeparator || c.column != indent || c.rest.isEmpty then
        (breaks ++ line, ⟨lastBreak, nextBreaks, c⟩)
      else
        let joint :=
          if folded && lastBreak == ['\n'] && starts && startsText c.head then
            if nextBreaks.isEmpty then [' '] else []
          else lastBreak
        let (more, last) := blockLines folded outermost indent fuel lastBreak nextBreaks c
        (breaks ++ line ++ joint ++ more, last)

/-- The end of a block scalar as its header wants it. -/
def Chomping.ending (chomping : Chomping) (last : BlockEnd) : List Char :=
  match chomping with
  | .strip => []
  | .clip => last.lastBreak
  | .keep => last.lastBreak ++ last.breaks

/-- Read a block scalar from after its indicator: its text and the position after it. `indent` is
the first column to the right of the collection around it. -/
def blockScalar? (folded : Bool) (indent : Nat) (c : Cursor) : Option (List Char × Cursor) := do
  let (header, c) ← blockHeader? c
  let (width, breaks, c) ← match header.increment with
    | some n =>
      let width := max indent 1 + n - 1
      some (width, blockBreaks width c.rest.length c)
    | none =>
      let (breaks, first, widest, c) := leadingBreaks c.rest.length c none 0
      match first with
      | some column => if 0 < column ∧ column < widest then none
      | none => pure ()
      some (max indent widest, breaks, c)
  let outermost := indent == 0 && header.increment.isNone
  let (text, last) := blockLines folded outermost width (c.rest.length + 1) [] breaks c
  some (text ++ header.chomping.ending last, last.after)

end RepoManifest.Yaml
