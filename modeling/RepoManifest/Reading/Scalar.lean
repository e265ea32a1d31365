import RepoManifest.Reading.Issue
import RepoManifest.Text.Utf8

/-!
# Reading texts, flags and lists

Texts are taken from words and from UTF-8 bytes. A field with a vocabulary also takes numbers and
truth values, by their text. Flags are taken from truth values, from zero and one, and from a closed
list of words.
-/

namespace RepoManifest.Reading

/-- A text: a word, a member that stands for one, or bytes in UTF-8. -/
def text : Value → Reading String
  | .str s | .member _ _ (.str s) => .ok s
  | .bytes b =>
    match Text.decodeUtf8 b with
    | .ok s => .ok s
    | .error _ => fault .notUtf8
  | _ => fault .notText

/-- A text that is not empty. -/
def nonEmptyText (v : Value) : Reading String :=
  match text v with
  | .ok s => if s.isEmpty then fault .tooShort else .ok s
  | .error issues => .error issues

/-- A word given as an integer. -/
def wordInteger (n : Int) : Reading String :=
  if n.natAbs < tenTo Value.digitLimit then .ok (toString n) else fault .tooManyDigits

/-- A word of a vocabulary, not yet checked: a text, or the text of a number or truth value. -/
def word : Value → Reading String
  | .bool b => .ok (Value.boolLiteral b)
  | .int n | .member _ _ (.int n) => wordInteger n
  | .double d | .member _ _ (.double d) => .ok d.text
  | v => text v

/-- Something that may be left unset. -/
def optional {α : Type} (read : Value → Reading α) : Value → Reading (Option α)
  | .null => .ok none
  | v => (read v).map some

/-- The words for a false flag. -/
def falseWords : List String := ["0", "off", "f", "false", "n", "no"]

/-- The words for a true flag. -/
def trueWords : List String := ["1", "on", "t", "true", "y", "yes"]

/-- A flag given as a word, in any letter case of ASCII. -/
def flagWord (s : String) : Reading Bool :=
  let lower := s.map Char.toLower
  if lower ∈ trueWords then .ok true
  else if lower ∈ falseWords then .ok false
  else fault .unknownFlag

/-- A flag given as a number that is looked at. -/
def flagNumber (n : Int) : Reading Bool :=
  if n = 0 then .ok false else if n = 1 then .ok true else fault .unknownFlag

/-- A flag given as an integer. Only those of 64 bits are looked at. -/
def flagInteger (n : Int) : Reading Bool := if fitsWord n then flagNumber n else fault .notFlag

/-- A flag given as a floating-point number, which has to be an integer of 64 bits. -/
def flagDouble (d : Double) : Reading Bool :=
  match d.integer? with
  | some n => if fitsWord n && n != -(twoTo 63 : Int) then flagNumber n else fault .notFlag
  | none => fault .notFlag

/-- A flag. -/
def flag : Value → Reading Bool
  | .bool b => .ok b
  | .int n | .member _ _ (.int n) => flagInteger n
  | .double d | .member _ _ (.double d) => flagDouble d
  | .str s => flagWord s
  | .member _ _ (.str s) => flagWord s
  | .bytes b =>
    match Text.decodeUtf8 b with
    | .ok s => flagWord s
    | .error _ => fault .unknownFlag
  | _ => fault .notFlag

/-- Read items in order, the first one at position `i`. -/
def itemsFrom {α : Type} (read : Value → Reading α) : Nat → List Value → Reading (List α)
  | _, [] => .ok []
  | i, v :: rest =>
    ap (ap (.ok List.cons) (under (.index i) (read v))) (itemsFrom read (i + 1) rest)

/-- The items of a sequence or set. -/
def sequence? : Value → Option (List Value)
  | .list items | .tuple items | .set items => some items
  | _ => none

/-- A list, item by item. -/
def list {α : Type} (read : Value → Reading α) (v : Value) : Reading (List α) :=
  match sequence? v with
  | some items => itemsFrom read 0 items
  | none => fault .notList

/-- A tuple, item by item. -/
def tuple {α : Type} (read : Value → Reading α) (v : Value) : Reading (List α) :=
  match sequence? v with
  | some items => itemsFrom read 0 items
  | none => fault .notTuple

/-- A list that may be left unset, which makes it empty. -/
def listOrUnset {α : Type} (read : Value → Reading α) : Value → Reading (List α)
  | .null => .ok []
  | v => list read v

/-- Words are read as they are. -/
@[simp] theorem text_str (s : String) : text (.str s) = .ok s := rfl

end RepoManifest.Reading
