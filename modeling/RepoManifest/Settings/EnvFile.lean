import RepoManifest.Log.Record
import RepoManifest.Settings.Environment
import RepoManifest.Text.Blank
import RepoManifest.Text.Cut
import RepoManifest.Text.Utf8

/-!
# Environment files

An environment file holds statements `NAME=value`, one per line, with an optional `export` in front.
Names and values may be quoted; quoted values may span lines and hold escapes; unquoted values end
at a comment. A statement that cannot be read is skipped up to the end of its line, with a warning.
In values, `${NAME}` and `${NAME:-default}` stand for variables: earlier statements of the file come
before the environment.
-/

namespace RepoManifest.EnvFile

open Text

/-- One statement: a name with a value, or a name alone; `none` is a comment or an empty line. -/
abbrev Statement := Option (String × Option String)

/-- The escapes of a double-quoted value. -/
def escapes : List (Char × Char) :=
  [('\\', '\\'), ('\'', '\''), ('"', '"'), ('a', '\x07'), ('b', '\x08'), ('f', '\x0c'),
    ('n', '\n'), ('r', '\r'), ('t', '\t'), ('v', '\x0b')]

/-- The escapes of a single-quoted value. -/
def plainEscapes : List (Char × Char) := [('\\', '\\'), ('\'', '\'')]

/-- Replace escapes; a backslash before any other character stands for itself. -/
def unescape (table : List (Char × Char)) : List Char → List Char
  | '\\' :: c :: rest =>
    match table.lookup c with
    | some d => d :: unescape table rest
    | none => '\\' :: unescape table (c :: rest)
  | c :: rest => c :: unescape table rest
  | [] => []

/-- Take a quoted text apart at its closing quote: the first quote that no backslash precedes. -/
def closeQuote? (quote : Char) : List Char → Option (List Char × List Char)
  | [] => none
  | '\\' :: c :: rest =>
    if c = quote then
      (closeQuote? quote rest).map fun (inside, after) ↦ ('\\' :: c :: inside, after)
    else (closeQuote? quote (c :: rest)).map fun (inside, after) ↦ ('\\' :: inside, after)
  | c :: rest =>
    if c = quote then some ([], rest)
    else (closeQuote? quote rest).map fun (inside, after) ↦ (c :: inside, after)

/-- Take a text apart at the last quote in it. -/
def cutLast? (quote : Char) (text : List Char) : Option (List Char × List Char) :=
  match cutAt? [quote] text.reverse with
  | some (after, inside) => some (inside.reverse, after.reverse)
  | none => none

/-- The inside of a quoted value and what follows it. Where every quote follows a backslash, the
last one closes. -/
def quoted? (quote : Char) (text : List Char) : Option (List Char × List Char) :=
  (closeQuote? quote text).orElse fun _ ↦ cutLast? quote text

/-- An unquoted value up to its comment: a number sign after a blank. -/
def dropComment : List Char → List Char
  | [] => []
  | c :: rest =>
    if isBlank c ∧ rest.head? = some '#' then [] else c :: dropComment rest

/-- An unquoted value without its comment and the blanks at its end. -/
def unquoted (line : List Char) : List Char := dropEndWhile isBlank (dropComment line)

/-- Whether a character belongs to a line. -/
def inLine (c : Char) : Bool := c != '\n' && c != '\r'

/-- A name and what follows it: a quoted name, or characters other than blanks, `=` and `#`. -/
def name? (text : List Char) : Option (List Char × List Char) :=
  match text with
  | '\'' :: rest =>
    match cutAt? ['\''] rest with
    | some (c :: name, after) => some (c :: name, after)
    | _ => none
  | _ =>
    let inName (c : Char) : Bool := c != '=' && c != '#' && !isBlank c
    let name := text.takeWhile inName
    if name.isEmpty then none else some (name, text.dropWhile inName)

/-- A value and what follows it. -/
def value? (text : List Char) : Option (List Char × List Char) :=
  match text with
  | '\'' :: rest => (quoted? '\'' rest).map fun (v, after) ↦ (unescape plainEscapes v, after)
  | '"' :: rest => (quoted? '"' rest).map fun (v, after) ↦ (unescape escapes v, after)
  | _ => some (unquoted (text.takeWhile inLine), text.dropWhile inLine)

/-- What follows the end of a statement: blanks, a comment and a line break, or the end. -/
def endOfStatement? (text : List Char) : Option (List Char) :=
  let rest := text.dropWhile isInlineBlank
  let rest := if rest.head? = some '#' then rest.dropWhile inLine else rest
  match rest with
  | [] => some []
  | c :: rest => if inLine c then none else some rest

/-- Drop the word `export` and the blanks after it. -/
def dropExport (text : List Char) : List Char :=
  let word := "export".toList
  if word.isPrefixOf text then
    let rest := text.drop word.length
    if rest.head?.any isInlineBlank then rest.dropWhile isInlineBlank else text
  else text

/-- What is left of a line that cannot be read, after the line. -/
def afterLine (text : List Char) : List Char := (text.dropWhile inLine).drop 1

/-- One statement from the front of a text that starts with it, and what follows. A statement that
cannot be read is `none`, with what follows its line. -/
def statement (text : List Char) : Option Statement × List Char :=
  let finish (s : Statement) (rest : List Char) : Option Statement × List Char :=
    match endOfStatement? rest with
    | some after => (some s, after)
    | none => (none, afterLine rest)
  let text := dropExport text
  if text.head? = some '#' then finish none text
  else match name? text with
    | none => (none, afterLine text)
    | some (name, rest) =>
      match rest.dropWhile isInlineBlank with
      | '=' :: rest =>
        let rest := rest.dropWhile isInlineBlank
        match value? rest with
        | none => (none, afterLine rest)
        | some (value, rest) =>
          finish (some (String.ofList name, some (String.ofList value))) rest
      | rest => finish (some (String.ofList name, none)) rest

/-- The number of line breaks between a text and its end. -/
def lineBreaks (text rest : List Char) : Nat :=
  (text.take (text.length - rest.length)).count '\n'

/-- The named statements of a text, and the numbers of the lines at which unreadable ones start. The
fuel is the length of the text: every statement takes at least one character. -/
def statementsFrom (fuel line : Nat) (text : List Char) :
    List (String × Option String) × List Nat :=
  match fuel with
  | 0 => ([], [])
  | fuel + 1 =>
    match text.dropWhile isBlank with
    | [] => ([], [])
    | body =>
      let (read, rest) := statement body
      let (statements, faults) := statementsFrom fuel (line + lineBreaks text rest) rest
      match read with
      | none => (statements, line :: faults)
      | some none => (statements, faults)
      | some (some s) => (s :: statements, faults)

/-- The named statements of a file's text, and the lines of unreadable ones. -/
def statements (text : String) : List (String × Option String) × List Nat :=
  let chars := unifyLines text.toList
  statementsFrom (chars.length + 1) 1 chars

/-- A part of a value: text, or a variable with the text to use where it is not set. -/
inductive Part where
  | text (c : Char)
  | reference (name : String) (fallback : String)
  deriving DecidableEq, Repr

/-- The variable at the front of a text, and what follows it. -/
def reference? (text : List Char) : Option (Part × List Char) :=
  match text with
  | '$' :: '{' :: rest =>
    let inName (c : Char) : Bool := c != '}' && c != ':'
    let name := String.ofList (rest.takeWhile inName)
    match rest.dropWhile inName with
    | '}' :: after => some (.reference name "", after)
    | ':' :: '-' :: rest =>
      match cutAt? ['}'] rest with
      | some (fallback, after) => some (.reference name (String.ofList fallback), after)
      | none => none
    | _ => none
  | _ => none

/-- The parts of a value. The fuel is the length of the value. -/
def partsFrom : Nat → List Char → List Part
  | _, [] => []
  | 0, _ => []
  | fuel + 1, c :: rest =>
    match reference? (c :: rest) with
    | some (part, after) => part :: partsFrom fuel after
    | none => .text c :: partsFrom fuel rest

/-- The parts of a value. -/
def valueParts (value : String) : List Part := partsFrom value.length value.toList

/-- The text of a part. A variable without a value is empty. -/
def Part.resolve (known : List (String × Option String)) : Part → String
  | .text c => c.toString
  | .reference name fallback =>
    match known.lookup name with
    | some value => value.getD ""
    | none => fallback

/-- Resolve the variables of statements in order. `known` holds what was resolved before, the latest
first, and then the environment. -/
def resolveFrom (known : List (String × Option String)) :
    List (String × Option String) → List (String × Option String)
  | [] => []
  | (name, value) :: rest =>
    let resolved := value.map fun v ↦ String.join ((valueParts v).map (Part.resolve known))
    (name, resolved) :: resolveFrom ((name, resolved) :: known) rest

/-- The variables that a file sets, in order, with variables in their values resolved. -/
def settings (env : Environment) (text : String) : List (String × Option String) :=
  resolveFrom (env.map fun (n, v) ↦ (n, some v)) (statements text).1

/-- The value that a file gives to a variable: that of its last statement. -/
def get? (settings : List (String × Option String)) (name : String) : Option String :=
  ((settings.filter (·.1 == name)).getLast?.map (·.2)).join

/-- The warning about a statement that cannot be read. -/
def faultRecord (line : Nat) : LogRecord :=
  ⟨.warning, "env_file",
    "python-dotenv could not parse statement starting at line " ++ toString line⟩

end RepoManifest.EnvFile
