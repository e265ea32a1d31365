import RepoManifest.Yaml.Cursor

/-!
# Scalars on one or more lines

Plain and quoted scalars. Inside them a single line break is a blank, and further breaks are kept. A
plain scalar ends at a comment, at an indicator and, outside of brackets, at a line that is indented
too little; a quoted scalar ends at its quote.
-/

namespace RepoManifest.Yaml

/-- The breaks of a folded text: one line feed alone is a blank, otherwise it is dropped before the
breaks that follow it. -/
def foldedBreaks (first : Char) (more : List Char) : List Char :=
  (if first ≠ '\n' then [first] else if more.isEmpty then [' '] else []) ++ more

/-! ## Plain scalars -/

/-- Whether a plain scalar ends before a character, given the character after it. -/
def endsPlain (version : Version) (inFlow : Bool) (c after : Char) : Bool :=
  if c == ':' && !endsWord after then false
  else if c == '?' && version != Version.legacy then false
  else endsWord c || c == ':' && (inFlow || endsWord after) ||
    inFlow && (c == ',' || c == '?' || c == '[' || c == ']' || c == '{' || c == '}')

/-- The characters in front that belong to a plain scalar. -/
def plainWord (version : Version) (inFlow : Bool) : List Char → List Char
  | [] => []
  | c :: rest =>
    if endsPlain version inFlow c (rest.headD '\x00') then []
    else c :: plainWord version inFlow rest

/-- Blank lines after a line break in a plain scalar: the breaks, the position after them, and
whether a separator of documents stopped the scalar. The fuel is the length of the text. -/
def plainBreaks : Nat → Cursor → List Char × Cursor × Bool
  | 0, c => ([], c, false)
  | fuel + 1, c =>
    if c.head = ' ' then plainBreaks fuel c.next
    else match c.lineBreak? with
      | none => ([], c, false)
      | some (x, c) =>
        if c.atAnySeparator then ([x], c, true)
        else
          let (more, c, stopped) := plainBreaks fuel c
          (x :: more, c, stopped)

/-- What lies between two words of a plain scalar: the text that stands for it, the position after
it, and whether a line break was crossed. Nothing between them ends the scalar. -/
def plainGap (c : Cursor) : List Char × Cursor × Bool :=
  let (blanks, c) := c.takeWhile (· == ' ')
  match c.lineBreak? with
  | none => (blanks, c, false)
  | some (x, c) =>
    if c.atAnySeparator then ([], c, true)
    else
      let (more, c, stopped) := plainBreaks c.rest.length c
      (if stopped then [] else foldedBreaks x more, c, true)

/-- The result of reading a plain scalar: its text, the position after it, and whether it ended at
the start of a line. -/
structure PlainScalar where
  text : List Char
  after : Cursor
  atLineStart : Bool

/-- Read a plain scalar word by word. `gap` stands before the next word; outside of brackets, words
have to stand at column `indent` or beyond it. The fuel is the length of the text. -/
def plainFrom (version : Version) (inFlow : Bool) (indent : Nat) :
    Nat → List Char → Cursor → Bool → PlainScalar
  | 0, _, c, atLineStart => ⟨[], c, atLineStart⟩
  | fuel + 1, gap, c, atLineStart =>
    if c.head = '#' then ⟨[], c, atLineStart⟩
    else
      let word := plainWord version inFlow c.rest
      if word.isEmpty then ⟨[], c, atLineStart⟩
      else
        let (nextGap, c, crossed) := plainGap (c.skip word.length)
        if nextGap.isEmpty || c.head == '#' || (!inFlow && c.column < indent) then
          ⟨gap ++ word, c, crossed⟩
        else
          let more := plainFrom version inFlow indent fuel nextGap c crossed
          { more with text := gap ++ word ++ more.text }

/-- Read a plain scalar. -/
def plainScalar (version : Version) (inFlow : Bool) (indent : Nat) (c : Cursor) : PlainScalar :=
  plainFrom version inFlow indent (c.rest.length + 1) [] c false

/-! ## Quoted scalars -/

/-- The escapes of one character. -/
def escapeTable : List (Char × Char) :=
  [('0', '\x00'), ('a', '\x07'), ('b', '\x08'), ('t', '\t'), ('\t', '\t'), ('n', '\n'),
    ('v', '\x0b'), ('f', '\x0c'), ('r', '\r'), ('e', '\x1b'), (' ', ' '), ('"', '"'), ('/', '/'),
    ('\\', '\\'), ('N', '\x85'), ('_', '\xa0'), ('L', '\u2028'), ('P', '\u2029')]

/-- The number of digits after an escape that names a code point. -/
def codeLength? (c : Char) : Option Nat :=
  if c = 'x' then some 2 else if c = 'u' then some 4 else if c = 'U' then some 8 else none

/-- The value of a hexadecimal digit. -/
def hexValue? (c : Char) : Option Nat :=
  if c.isDigit then some (c.toNat - '0'.toNat)
  else if 'a' ≤ c ∧ c ≤ 'f' then some (c.toNat - 'a'.toNat + 10)
  else if 'A' ≤ c ∧ c ≤ 'F' then some (c.toNat - 'A'.toNat + 10)
  else none

/-- The number written by hexadecimal digits. -/
def hexNumber? (digits : List Char) : Option Nat :=
  digits.foldlM (fun n c ↦ (hexValue? c).map (16 * n + ·)) 0

/-- Blank lines inside a quoted scalar: the breaks and the position after them. A separator of
documents at the start of a line is refused. The fuel is the length of the text. -/
def quotedBreaks : Nat → Cursor → Option (List Char × Cursor)
  | 0, c => some ([], c)
  | fuel + 1, c =>
    if c.atAnySeparator then none
    else
      let c := c.skipWhile fun x ↦ x == ' ' || x == '\t'
      match c.lineBreak? with
      | none => some ([], c)
      | some (x, c) => (quotedBreaks fuel c).map fun (more, c) ↦ (x :: more, c)

/-- A number of code units as a character: a pair of surrogates is one character. Lone surrogates
and numbers beyond the last code point are refused. -/
def charOfCodes? : List Nat → Option (List Char)
  | [] => some []
  | high :: rest =>
    if 0xd800 ≤ high ∧ high < 0xdc00 then
      match rest with
      | low :: rest =>
        if 0xdc00 ≤ low ∧ low < 0xe000 then
          (charOfCodes? rest).map
            (Char.ofNat (0x10000 + (high - 0xd800) * 0x400 + (low - 0xdc00)) :: ·)
        else none
      | [] => none
    else if high.isValidChar then (charOfCodes? rest).map (Char.ofNat high :: ·)
    else none

/-- The code points of characters. -/
def codesOf (chars : List Char) : List Nat := chars.map Char.toNat

/-- Read a quoted scalar from after its first quote: the code points of its text, and the position
after its last quote. The fuel is the length of the text. -/
def quotedFrom (double : Bool) : Nat → Cursor → Option (List Nat × Cursor)
  | 0, _ => none
  | fuel + 1, c =>
    let add (codes : List Nat) (c : Cursor) : Option (List Nat × Cursor) :=
      (quotedFrom double fuel c).map fun (more, after) ↦ (codes ++ more, after)
    match c.rest with
    | [] => none
    | '\'' :: rest =>
      if double then add ['\''.toNat] c.next
      else if rest.head? = some '\'' then add ['\''.toNat] (c.skip 2)
      else some ([], c.next)
    | '"' :: _ => if double then some ([], c.next) else add ['"'.toNat] c.next
    | '\\' :: rest =>
      if !double then add ['\\'.toNat] c.next
      else
        let x := rest.headD '\x00'
        match escapeTable.lookup x, codeLength? x with
        | some y, _ => if rest.isEmpty then none else add [y.toNat] (c.skip 2)
        | none, some n =>
          let digits := (rest.drop 1).take n
          if digits.length < n then none
          else match hexNumber? digits with
            | some code => add [code] (c.skip (2 + n))
            | none => none
        | none, none =>
          match c.next.lineBreak? with
          | some (_, c) =>
            match quotedBreaks c.rest.length c with
            | some (breaks, c) => add (codesOf breaks) c
            | none => none
          | none => none
    | x :: _ =>
      if x = ' ' ∨ x = '\t' ∨ isBreak x then
        let (blanks, c) := c.takeWhile fun x ↦ x == ' ' || x == '\t'
        match c.lineBreak? with
        | none => add (codesOf blanks) c
        | some (y, c) =>
          match quotedBreaks c.rest.length c with
          | some (breaks, c) => add (codesOf (foldedBreaks y breaks)) c
          | none => none
      else add [x.toNat] c.next

/-- Read a quoted scalar, its first quote in front: its text and the position after it. -/
def quotedScalar? (c : Cursor) : Option (List Char × Cursor) :=
  match quotedFrom (c.head == '"') (c.rest.length + 1) c.next with
  | some (codes, after) => (charOfCodes? codes).map fun text ↦ (text, after)
  | none => none

end RepoManifest.Yaml
