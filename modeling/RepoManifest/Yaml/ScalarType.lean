import RepoManifest.Text.Pattern
import RepoManifest.Yaml.Cursor

/-!
# Types of plain scalars

A scalar without a tag and without quotes has the type that its text looks like. The standard
version knows fewer spellings of truth values and numbers than the legacy one.
-/

namespace RepoManifest.Yaml

open Text (Pattern)
open Text.Pattern (among word words digit optional repeated)

/-- The types that a plain scalar may have. -/
inductive ScalarType
  | text
  | bool
  | float
  | int
  | merge
  | null
  | timestamp
  | value
  deriving DecidableEq, Repr

namespace ScalarType

/-- The name of a type, without the part that all names share. -/
def name : ScalarType → String
  | .text => "str"
  | .bool => "bool"
  | .float => "float"
  | .int => "int"
  | .merge => "merge"
  | .null => "null"
  | .timestamp => "timestamp"
  | .value => "value"

/-! ## Spellings -/

/-- A sign or none. -/
def sign : Pattern := optional (among "+-")

/-- A digit or an underscore. -/
def spaced : Pattern := among "0123456789_"

/-- Parts of sixty after the first part of a number. -/
def sixtieths : Pattern := repeated (word ":" ++ optional (among "012345") ++ digit)

/-- The truth values of the standard version. -/
def standardBools : List String := ["true", "True", "TRUE", "false", "False", "FALSE"]

/-- The further truth values of the legacy version. -/
def legacyBools : List String :=
  ["y", "Y", "yes", "Yes", "YES", "n", "N", "no", "No", "NO", "on", "On", "ON", "off", "Off", "OFF"]

/-- Numbers with a point or an exponent. Only the standard version has a sign before a point. -/
def floats ( isLegacy : Bool) : Pattern :=
  let exponent (marked : Pattern) := among "eE" ++ marked ++ repeated digit
  let whole := digit ++ .many spaced
  let fraction := word "." ++ repeated spaced ++ optional (exponent (among "+-"))
  sign ++ whole ++ word "." ++ .many spaced ++ optional (exponent sign)
    ||| sign ++ whole ++ exponent sign
    ||| (if isLegacy then fraction else sign ++ fraction)
    ||| (if isLegacy then sign ++ whole ++ sixtieths ++ word "." ++ .many spaced else .never)
    ||| sign ++ word "." ++ words ["inf", "Inf", "INF"]
    ||| word "." ++ words ["nan", "NaN", "NAN"]

/-- Whole numbers. -/
def ints ( isLegacy : Bool) : Pattern :=
  let based := sign ++ word "0b" ++ repeated (among "01_")
    ||| sign ++ word "0x" ++ repeated (among "0123456789abcdefABCDEF_")
  if isLegacy then
    based ||| sign ++ optional (word "0") ++ repeated (among "01234567_")
      ||| sign ++ (word "0" ||| among "123456789" ++ .many spaced)
      ||| sign ++ among "123456789" ++ .many spaced ++ sixtieths
  else
    based ||| sign ++ optional (word "0" ++ optional (word "o")) ++ repeated (among "01234567_")
      ||| sign ++ repeated spaced

/-- The spellings of nothing. -/
def nulls : List String := ["~", "null", "Null", "NULL", ""]

/-- Days, and points in time. -/
def timestamps : Pattern :=
  let two := digit ++ digit
  let upToTwo := digit ++ optional digit
  let year := two ++ two
  let blanks := Pattern.many (among " \t")
  let zone := blanks ++ (word "Z" ||| among "+-" ++ upToTwo ++ optional (word ":" ++ two))
  year ++ word "-" ++ two ++ word "-" ++ two
    ||| year ++ word "-" ++ upToTwo ++ word "-" ++ upToTwo
      ++ (among "Tt" ||| repeated (among " \t")) ++ upToTwo ++ word ":" ++ two
      ++ word ":" ++ two ++ optional (word "." ++ .many digit) ++ optional zone

/-- Whether a text, or the text before a line feed at its end, has a spelling. -/
def spelled (p : Pattern) (text : List Char) : Bool :=
  p.accepts text ||
    1 < text.length && text.getLast? == some '\n' && p.accepts text.dropLast

/-- The type that a text looks like. Versions other than the two known ones have no types. -/
def ofPlain? (version : Version) (text : List Char) : Option ScalarType :=
  if version ≠ Version.standard ∧ version ≠ Version.legacy then none
  else
    let isLegacy := version = Version.legacy
    let bools := if isLegacy then standardBools ++ legacyBools else standardBools
    let numeric := "+-0123456789".toList.contains (text.headD ' ')
    some <|
      if spelled (words bools) text then .bool
      else if spelled (floats isLegacy) text then .float
      else if numeric && spelled (ints isLegacy) text then .int
      else if spelled (word "<<") text then .merge
      else if spelled (words nulls) text then .null
      else if spelled timestamps text then .timestamp
      else if spelled (word "=") text then .value
      else .text

end ScalarType
end RepoManifest.Yaml
