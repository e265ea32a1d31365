import RepoManifest.Number.Reading
import RepoManifest.Text.Base64
import RepoManifest.Value.Calendar
import RepoManifest.Yaml.ScalarType

/-!
# Values of scalars

What the text of a scalar stands for, once its type is known. A text that does not fit its type is
refused.
-/

namespace RepoManifest.Yaml

/-- The parts of a number between colons, the last one first. -/
def colonParts (text : List Char) : List (List Char) :=
  (text.splitOn ':').reverse

/-- A whole number. Legacy documents write octal numbers with a leading zero, and may separate parts
of sixty by colons. -/
def integer? (version : Version) (text : List Char) : Option Int :=
  let bare := text.filter (· != '_')
  let (negative, digits) := splitSign bare
  let signed (n : Int) : Int := if negative then -n else n
  let legacy := version = Version.legacy
  if bare.isEmpty then none
  else match digits with
    | '0' :: 'b' :: rest => (readInteger? 2 rest).map signed
    | '0' :: 'x' :: rest => (readInteger? 16 rest).map signed
    | '0' :: 'o' :: rest => (readInteger? 8 rest).map signed
    | _ =>
      if legacy && digits.isEmpty then none
      else if legacy && digits.head? == some '0' then (readInteger? 8 digits).map signed
      else if legacy && digits.contains ':' then
        ((colonParts digits).mapM (readInteger? 10)).map fun parts ↦
          signed (parts.foldr (fun n total ↦ total * 60 + n) 0)
      else (readInteger? 10 digits).map signed

/-- A sum of parts of sixty, the last part first, each step rounded. -/
def sexagesimal? (parts : List Double) : Option Double :=
  let step (state : Double × Int) (part : Double) : Option (Double × Int) := do
    let (total, base) := state
    let product ← (Double.ofUnits ((← part.units?) * base)).units?
    some (Double.ofUnits ((← total.units?) + product), base * 60)
  (parts.foldlM step (Double.ofUnits 0, 1)).map (·.1)

/-- A number with a point. -/
def double? (version : Version) (text : List Char) : Option Double := do
  let bare := (text.filter (· != '_')).map Char.toLower
  let (negative, digits) := splitSign bare
  let signed (d : Double) : Double := if negative then d.negated else d
  if bare.isEmpty then none
  else if digits = ".inf".toList then some (signed (.infinite false))
  else if digits = ".nan".toList then some .nan
  else if version ≠ Version.standard ∧ digits.contains ':' then
    let parts ← (colonParts digits).mapM fun part ↦ Double.read? (String.ofList part)
    (sexagesimal? parts).map signed
  else (Double.read? (String.ofList digits)).map signed

/-- The words for the truth values. -/
def boolTable : List (String × Bool) :=
  [("yes", true), ("no", false), ("y", true), ("n", false), ("true", true), ("false", false),
    ("on", true), ("off", false)]

/-- A truth value, in any letter case. -/
def bool? (text : List Char) : Option Bool :=
  boolTable.lookup (String.ofList (text.map Char.toLower))

/-! ## Days and times -/

/-- A number of at least `least` and at most `most` digits in front, and the text after it. -/
def takeNumber? (least most : Nat) (text : List Char) : Option (Nat × List Char) :=
  let digits := (text.take most).takeWhile Char.isDigit
  if digits.length < least then none
  else some (decimalValue digits, text.drop digits.length)

/-- The text after a character in front. -/
def skipChar? (c : Char) : List Char → Option (List Char)
  | x :: rest => if x = c then some rest else none
  | [] => none

/-- Microseconds written as a fraction of a second; the seventh digit rounds. -/
def microseconds (digits : List Char) : Nat :=
  let padded := (digits ++ List.replicate 6 '0').take 6
  decimalValue padded + if '5' ≤ (digits.getD 6 '0') then 1 else 0

/-- The offset from universal time in minutes, if one is written. Nothing may follow it. -/
def offset? (text : List Char) : Option Int :=
  match text.dropWhile fun c ↦ c == ' ' || c == '\t' with
  | [] => if text.isEmpty then some 0 else none
  | ['Z'] => some 0
  | c :: rest => do
    if c ≠ '+' ∧ c ≠ '-' then none
    let (hours, rest) ← takeNumber? 1 2 rest
    let (minutes, rest) ←
      if rest.isEmpty then some (0, [])
      else do takeNumber? 2 2 (← skipChar? ':' rest)
    let total : Int := hours * 60 + minutes
    if rest.isEmpty then some (if c = '-' then -total else total) else none

/-- What separates a day from a time. -/
def skipDaySeparator? (text : List Char) : Option (List Char) :=
  let isSpace (c : Char) := c == ' ' || c == '\t'
  match text with
  | 'T' :: rest | 't' :: rest => some rest
  | c :: rest => if isSpace c then some (rest.dropWhile isSpace) else none
  | [] => none

/-- A day, or a point in time without its offset. -/
def timestamp? (text : List Char) : Option Value := do
  let text := if text.getLast? = some '\n' then text.dropLast else text
  let (year, text) ← takeNumber? 4 4 text
  let (month, text) ← takeNumber? 1 2 (← skipChar? '-' text)
  let (day, text) ← takeNumber? 1 2 (← skipChar? '-' text)
  if text.isEmpty then return .date (← Date.make? year month day)
  let (hour, text) ← takeNumber? 1 2 (← skipDaySeparator? text)
  let (minute, text) ← takeNumber? 2 2 (← skipChar? ':' text)
  let (second, text) ← takeNumber? 2 2 (← skipChar? ':' text)
  let (fraction, text) := match text with
    | '.' :: rest => (rest.takeWhile Char.isDigit, rest.dropWhile Char.isDigit)
    | _ => ([], text)
  let offset ← offset? text
  let day ← Date.make? year month day
  let micro := microseconds fraction
  let time ← TimeOfDay.make? hour minute second (micro % 1000000)
  let (day, time) ← shiftSeconds? day time (-offset * 60)
  let (day, time) ← shiftSeconds? day time (micro / 1000000 : Nat)
  some (.datetime day time)

/-- The value of a scalar of a type. Marks of merging and of default values have none. -/
def scalarValue? (version : Version) (type : ScalarType) (text : List Char) : Option Value :=
  match type with
  | .text => some (.str (String.ofList text))
  | .bool => (bool? text).map .bool
  | .float => (double? version text).map .double
  | .int => (integer? version text).map .int
  | .null => some .null
  | .timestamp => timestamp? text
  | .merge | .value => none

end RepoManifest.Yaml
