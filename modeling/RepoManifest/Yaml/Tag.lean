import RepoManifest.Text.Utf8
import RepoManifest.Yaml.Block
import RepoManifest.Yaml.Flow

/-!
# Anchors, tags and directives

The names that a document gives to nodes, to their types and to its own version, as they stand in
the text.
-/

namespace RepoManifest.Yaml

/-! ## Anchors -/

/-- A character that may stand in a name of a node. -/
def isNameChar (c : Char) : Bool :=
  let n := c.toNat
  !(c == ',' || c == '[' || c == ']' || c == '{' || c == '}') &&
    (0x21 ≤ n && n ≤ 0x7e || 0xa0 ≤ n && n ≤ 0xfffd && n != 0xfeff || 0x10000 ≤ n)

/-- A character that may follow a name of a node. -/
def endsName (c : Char) : Bool :=
  isBreak c || "\x00 \t?:,[]\x7b\x7d%@\x60".toList.contains c

/-- Read the name of a node. -/
def nodeName? (c : Cursor) : Option (String × Cursor) :=
  let (name, c) := c.takeWhile isNameChar
  if name.isEmpty || !endsName c.head then none else some (String.ofList name, c)

/-! ## Tags -/

/-- A tag as it is written: an abbreviation, which the document defines, and the rest. -/
structure Tag where
  handle : Option String
  suffix : String
  deriving DecidableEq, Repr

/-- A character that may stand in a tag, escapes apart. -/
def isTagChar (version : Version) (c : Char) : Bool :=
  c.isAlphanum || "-;/?:@&=+$,_.!~*'()[]".toList.contains c || version.isModern && c == '#'

/-- The bytes of consecutive escapes, and the position after them. The fuel is the length of the
text. -/
def tagEscapes : Nat → Cursor → Option (List UInt8 × Cursor)
  | 0, c => some ([], c)
  | fuel + 1, c =>
    if c.head ≠ '%' then some ([], c)
    else do
      let high ← hexValue? (c.peek 1)
      let low ← hexValue? (c.peek 2)
      let (more, c) ← tagEscapes fuel (c.skip 3)
      some (UInt8.ofNat (16 * high + low) :: more, c)

/-- The characters of a tag. The fuel is the length of the text. -/
def tagText (version : Version) : Nat → Cursor → Option (List Char × Cursor)
  | 0, c => some ([], c)
  | fuel + 1, c =>
    if c.head = '%' then do
      let (bytes, c) ← tagEscapes c.rest.length c
      let text ← (Text.decodeUtf8 bytes).toOption.map String.toList
      let (more, c) ← tagText version fuel c
      some (text ++ more, c)
    else
      let (text, c) := c.takeWhile (isTagChar version)
      if text.isEmpty then some ([], c)
      else do
        let (more, c) ← tagText version fuel c
        some (text ++ more, c)

/-- Read a tag, which is not empty. -/
def tagText? (version : Version) (c : Cursor) : Option (String × Cursor) := do
  let (text, c) ← tagText version (c.rest.length + 1) c
  if text.isEmpty then none else some (String.ofList text, c)

/-- Read an abbreviation: an exclamation mark alone before a blank, otherwise a word between two of
them. -/
def tagHandle? (c : Cursor) : Option (String × Cursor) :=
  if c.head ≠ '!' then none
  else if c.peek 1 = ' ' then some ("!", c.next)
  else
    let (word, c) := c.next.takeWhile fun x ↦ x.isAlphanum || x == '-' || x == '_'
    if c.head = '!' then some (String.ofList ('!' :: word ++ ['!']), c.next) else none

/-- Read a tag of a node, its exclamation mark in front. -/
def tag? (version : Version) (c : Cursor) : Option (Tag × Cursor) := do
  let (tag, c) ←
    if c.peek 1 = '<' then do
      let (text, c) ← tagText? version (c.skip 2)
      if c.head = '>' then some (⟨none, text⟩, c.next) else none
    else if endsWord (c.peek 1) then some (⟨none, "!"⟩, c.next)
    else do
      let marked := (c.rest.drop 1).takeWhile fun x ↦ !endsHeader x
      let (handle, c) ← if marked.contains '!' then tagHandle? c else some ("!", c.next)
      let (text, c) ← tagText? version c
      some (⟨some handle, text⟩, c)
  if endsHeader c.head then some (tag, c) else none

/-! ## Directives -/

/-- What a document says about itself before it starts. -/
inductive Directive
  | version (version : Version)
  | tag (handle text : String)
  | other
  deriving DecidableEq, Repr

/-- Read a number of a version. -/
def versionNumber? (c : Cursor) : Option (Nat × Cursor) :=
  let (digits, c) := c.takeWhile Char.isDigit
  if digits.isEmpty then none
  else some (digits.foldl (fun n d ↦ 10 * n + (d.toNat - '0'.toNat)) 0, c)

/-- Read a version. -/
def version? (c : Cursor) : Option (Directive × Cursor) := do
  let (major, c) ← versionNumber? (c.skipWhile (· == ' '))
  if c.head ≠ '.' then none
  let (minor, c) ← versionNumber? c.next
  if endsHeader c.head then some (.version ⟨major, minor⟩, c) else none

/-- Read the definition of an abbreviation. -/
def tagDefinition? (version : Version) (c : Cursor) : Option (Directive × Cursor) := do
  let (handle, c) ← tagHandle? (c.skipWhile (· == ' '))
  if c.head ≠ ' ' then none
  let (text, c) ← tagText? version (c.skipWhile (· == ' '))
  if endsHeader c.head then some (.tag handle text, c) else none

/-- Read a directive from after its indicator, to the end of its line. -/
def directive? (version : Version) (c : Cursor) : Option (Directive × Cursor) := do
  let (name, c) := c.takeWhile fun x ↦ x.isAlphanum || "-_:.".toList.contains x
  if name.isEmpty || !endsHeader c.head then none
  let (directive, c) ←
    if name = "YAML".toList then version? c
    else if name = "TAG".toList then tagDefinition? version c
    else some (.other, c.skipWhile (!endsLine ·))
  let c ← skipRestOfLine c
  some (directive, c)

end RepoManifest.Yaml
