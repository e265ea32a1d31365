import RepoManifest.Yaml.Tag

/-!
# Tokens

The text of a document as a list of marks and scalars. Indentation becomes the marks that open and
close a collection. Whether a scalar is the key of a mapping shows only at the colon after it: until
then its place is pending, and the mark of the key is put there late.
-/

namespace RepoManifest.Yaml

/-- The words and marks of a document. -/
inductive Token
  | directive (directive : Directive)
  | documentStart
  | documentEnd
  | sequenceStart
  | mappingStart
  | blockEnd
  | flowSequenceStart
  | flowSequenceEnd
  | flowMappingStart
  | flowMappingEnd
  | entry
  | separator
  | key
  | value
  | alias (name : String)
  | anchor (name : String)
  | tag (tag : Tag)
  | scalar (text : String) ( isPlain : Bool)
  deriving DecidableEq, Repr

namespace Token

/-- A place that may turn out to hold a key: the number of tokens before it, its position, and
whether a key has to stand there. -/
structure PendingKey where
  before : Nat
  position : Cursor
  required : Bool

/-- A bracket that is open, with the pending key of the text around it. -/
structure Bracket where
  mark : Char
  outerKey : Option PendingKey

/-- The state of reading tokens. `tokens` are the tokens so far, the latest first. `indent` is the
first column to the right of the innermost collection, `outerIndents` those of the collections
around it. `keyAllowed` says whether a key may start here. -/
structure State where
  cursor : Cursor
  tokens : List Token := []
  count : Nat := 0
  brackets : List Bracket := []
  indent : Nat := 0
  outerIndents : List Nat := []
  keyAllowed : Bool := true
  pending : Option PendingKey := none
  version : Version := Version.standard

namespace State

/-- Whether the text is inside of brackets. -/
def inFlow (s : State) : Bool := !s.brackets.isEmpty

/-- Add a token. -/
def push (t : Token) (s : State) : State := { s with tokens := t :: s.tokens, count := s.count + 1 }

/-- Add a token of a number of characters, and go past them. -/
def pushMark (t : Token) (length : Nat) (s : State) : State :=
  { s.push t with cursor := s.cursor.skip length }

/-- Put a token at the place that has a number of tokens before it. -/
def insert (t : Token) (before : Nat) (s : State) : State :=
  { s with tokens := s.tokens.insertIdx (s.count - before) t, count := s.count + 1 }

/-! ## Keys -/

/-- Whether a pending key is too far back to be one: keys end on their line, within 1024
characters. -/
def isStale (s : State) (k : PendingKey) : Bool :=
  k.position.line != s.cursor.line || k.position.index + 1024 < s.cursor.index

/-- Drop a pending key that is too far back. A required one is refused. -/
def freshKey? (s : State) : Option PendingKey → Option (Option PendingKey)
  | none => some none
  | some k => if !s.isStale k then some (some k) else if k.required then none else some none

/-- Drop all pending keys that are too far back. -/
def dropStale? (s : State) : Option State := do
  let brackets ← s.brackets.mapM fun b ↦ do some { b with outerKey := ← s.freshKey? b.outerKey }
  some { s with brackets, pending := ← s.freshKey? s.pending }

/-- Whether any key is pending. -/
def hasPending (s : State) : Bool := s.pending.isSome || s.brackets.any (·.outerKey.isSome)

/-- Give up the pending key. A required one is refused. -/
def dropKey? (s : State) : Option State :=
  match s.pending with
  | some k => if k.required then none else some { s with pending := none }
  | none => some s

/-- Note that a key may start here. -/
def saveKey? (s : State) : Option State :=
  if !s.keyAllowed then some s
  else do
    let required := !s.inFlow && s.indent == s.cursor.column + 1
    let s ← s.dropKey?
    some { s with pending := some ⟨s.count, s.cursor, required⟩ }

/-! ## Indentation -/

/-- Close the collections whose content starts beyond a column. -/
def closeFrom (s : State) : List Nat → Nat → State
  | [], _ => s
  | outer :: more, limit =>
    if limit < s.indent then
      closeFrom { s.push .blockEnd with indent := outer, outerIndents := more } more limit
    else s

/-- Close the collections that are indented further than a column, counted from one. Brackets keep
them open. -/
def close (s : State) (limit : Nat) : State :=
  if s.inFlow then s else closeFrom s s.outerIndents limit

/-- Open a collection at a column, unless one is open there. `none` says that one is. -/
def openAt? (s : State) (column : Nat) : Option State :=
  if s.indent ≤ column then
    some { s with indent := column + 1, outerIndents := s.indent :: s.outerIndents }
  else none

/-- Open a collection at the current column and add its mark, unless one is open there. -/
def openHere (t : Token) (s : State) : State :=
  match s.openAt? s.cursor.column with
  | some s => s.push t
  | none => s

/-! ## Single tokens -/

/-- Skip blanks, comments and line ends. Outside of brackets a key may start on a new line. The
fuel is the length of the text. -/
def skipSpace : Nat → State → State
  | 0, s => s
  | fuel + 1, s =>
    let c := s.cursor.skipWhile fun x ↦ x == ' ' || s.inFlow && x == '\t'
    let c := if c.head = '#' then c.skipWhile (!endsLine ·) else c
    match c.lineBreak? with
    | some (_, c) =>
      skipSpace fuel { s with cursor := c, keyAllowed := s.keyAllowed || !s.inFlow }
    | none => { s with cursor := c }

/-- Go to the next token. A byte-order mark may stand at the start of the text. -/
def skipToToken (s : State) : State :=
  let c := s.cursor
  let c := if c.index = 0 ∧ c.head = '\ufeff' then c.next else c
  skipSpace (c.rest.length + 1) { s with cursor := c }

/-- Close everything before a directive, a separator or the end. -/
def endContent? (s : State) : Option State := do
  let s ← (s.close 0).dropKey?
  some { s with keyAllowed := false }

/-- Add a separator of documents. -/
def documentMark? (t : Token) (s : State) : Option State := (s.endContent?).map (·.pushMark t 3)

/-- Add a directive. A version holds from here on. -/
def directiveToken? (s : State) : Option State := do
  let s ← s.endContent?
  let (d, c) ← directive? s.version s.cursor.next
  let version := match d with
    | .version v => v
    | _ => s.version
  some { s.push (.directive d) with cursor := c, version }

/-- Open a bracket. -/
def openBracket? (t : Token) (s : State) : Option State := do
  let mark := s.cursor.head
  let s ← s.saveKey?
  some { s.pushMark t 1 with
    brackets := ⟨mark, s.pending⟩ :: s.brackets, pending := none, keyAllowed := true }

/-- Close a bracket. One that was never opened is left to the reader of the tokens. -/
def closeBracket? (t : Token) (s : State) : Option State := do
  let s ← s.dropKey?
  let s := { s.pushMark t 1 with keyAllowed := false }
  match s.brackets with
  | b :: outer => some { s with brackets := outer, pending := b.outerKey }
  | [] => some s

/-- Add a comma. -/
def separatorToken? (s : State) : Option State := do
  let s ← s.dropKey?
  some { s.pushMark .separator 1 with keyAllowed := true }

/-- Add the mark of an entry of a list. -/
def entryToken? (s : State) : Option State := do
  if !s.inFlow && !s.keyAllowed then none
  let s := if s.inFlow then s else s.openHere .sequenceStart
  let s ← s.dropKey?
  some { s.pushMark .entry 1 with keyAllowed := true }

/-- Add the mark of a key that is written out. -/
def keyToken? (s : State) : Option State := do
  if !s.inFlow && !s.keyAllowed then none
  let s := if s.inFlow then s else s.openHere .mappingStart
  let s ← s.dropKey?
  some { s.pushMark .key 1 with keyAllowed := !s.inFlow }

/-- Add the mark of a value. What was pending is now a key, and opens a mapping if none is open at
its column. -/
def valueToken? (s : State) : Option State :=
  match s.pending with
  | some k =>
    let s := { s.insert .key k.before with pending := none, keyAllowed := false }
    let s :=
      if s.inFlow then s
      else match s.openAt? k.position.column with
        | some s => s.insert .mappingStart k.before
        | none => s
    some (s.pushMark .value 1)
  | none =>
    if !s.inFlow && !s.keyAllowed then none
    else
      let s := if s.inFlow then s else s.openHere .mappingStart
      some { s.pushMark .value 1 with keyAllowed := !s.inFlow }

/-- Add a token that is read from the text and that may be a key or belong to one. -/
def word? (read : Cursor → Option (Token × Cursor)) (s : State) : Option State := do
  let s ← s.saveKey?
  let (t, c) ← read s.cursor
  some { s.push t with cursor := c, keyAllowed := false }

/-- Add a block scalar. -/
def blockToken? ( isFolded : Bool) (s : State) : Option State := do
  let s ← s.dropKey?
  let (text, c) ← blockScalar? isFolded s.indent s.cursor.next
  some { s.push (.scalar (String.ofList text) false) with cursor := c, keyAllowed := true }

/-- Add a plain scalar. -/
def plainToken? (s : State) : Option State := do
  let s ← s.saveKey?
  let r := plainScalar s.version s.inFlow s.indent s.cursor
  some { s.push (.scalar (String.ofList r.text) true) with
    cursor := r.after, keyAllowed := r.atLineStart }

/-! ## Choice of the token -/

/-- The characters that start no plain scalar unless text follows them. -/
def indicators : List Char := "-?:,[]\x7b\x7d#&*!|>'\"%@\x60".toList

/-- Whether a plain scalar is in front. -/
def atPlain (s : State) : Bool :=
  let c := s.cursor.head
  let after := s.cursor.peek 1
  if !(isBreak c || endsWord c || indicators.contains c) then true
  else if s.version != Version.legacy && s.inFlow && c == ':' then after != ' ' && after != '\t'
  else !endsWord after && (c == '-' || !s.inFlow && (c == '?' || c == ':'))

/-- Whether the mark of a written key is in front. -/
def atKey (s : State) : Bool := s.inFlow || endsWord (s.cursor.peek 1)

/-- Whether the mark of a value is in front. `waiting` says whether tokens are held back by a
pending key. -/
def atValue (s : State) ( isWaiting : Bool) : Bool :=
  match s.brackets with
  | [] => endsWord (s.cursor.peek 1)
  | b :: _ =>
    if s.version = Version.legacy then true
    else if b.mark = '[' then endsWord (s.cursor.peek 1)
    else if isWaiting && s.tokens.head? == some .value then endsWord (s.cursor.peek 1)
    else true

/-- Add the token in front. -/
def token? (s : State) ( isWaiting : Bool) : Option State :=
  let c := s.cursor.head
  let atStart := s.cursor.column == 0
  let endsNext := endsWord (s.cursor.peek 1)
  if c = '%' ∧ atStart then s.directiveToken?
  else if atStart && s.cursor.atSeparator '-' then s.documentMark? .documentStart
  else if atStart && s.cursor.atSeparator '.' then s.documentMark? .documentEnd
  else if c = '[' then s.openBracket? .flowSequenceStart
  else if c = '{' then s.openBracket? .flowMappingStart
  else if c = ']' then s.closeBracket? .flowSequenceEnd
  else if c = '}' then s.closeBracket? .flowMappingEnd
  else if c = ',' then s.separatorToken?
  else if c = '-' ∧ endsNext then s.entryToken?
  else if c = '?' ∧ s.atKey then s.keyToken?
  else if c = ':' ∧ s.atValue isWaiting then s.valueToken?
  else if c = '*' then s.word? fun c ↦ (nodeName? c.next).map fun (n, c) ↦ (.alias n, c)
  else if c = '&' then s.word? fun c ↦ (nodeName? c.next).map fun (n, c) ↦ (.anchor n, c)
  else if c = '!' then s.word? fun c ↦ (tag? s.version c).map fun (t, c) ↦ (.tag t, c)
  else if (c = '|' ∨ c = '>') ∧ !s.inFlow then s.blockToken? (c == '>')
  else if c = '\'' ∨ c = '"' then
    s.word? fun c ↦ (quotedScalar? c).map fun (t, c) ↦ (.scalar (String.ofList t) false, c)
  else if s.atPlain then s.plainToken?
  else none

/-- Read all tokens. Every token takes a character, so the length of the text is fuel enough. -/
def run : Nat → State → Option State
  | 0, _ => none
  | fuel + 1, s => do
    let isWaiting := (← s.dropStale?).hasPending
    let s ← (← s.dropStale?).skipToToken.dropStale?
    let s := s.close (s.cursor.column + 1)
    if s.cursor.rest.isEmpty then s.endContent? else run fuel (← s.token? isWaiting)

end State

/-- The tokens of a text, and the version that it is written for. -/
def ofText? (text : List Char) : Option (List Token × Version) := do
  let s ← State.run (text.length + 2) { cursor := { rest := text } }
  some (s.tokens.reverse, s.version)

end Token
end RepoManifest.Yaml
