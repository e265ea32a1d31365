import RepoManifest.Number.Shortest
import RepoManifest.Text.Quoted
import RepoManifest.Value.Basic

/-!
# Text of values

A value has two texts. `literal` is how it would be written in source form, with quotes and type
names; messages about a wrong value show it. `display` is the plain form: a word is itself, a date
is in ISO form, a member that is a number is that number, another member is named by its type, and
an object is its fields. Integers of too many digits cannot be written: `hasLiteral` and
`hasDisplay` say which values have their texts.
-/

namespace RepoManifest

/-- A number in at least `width` decimal digits. -/
def paddedNat (width n : Nat) : String :=
  let digits := Nat.toDigits 10 n
  String.ofList (List.replicate (width - digits.length) '0' ++ digits)

namespace Date

/-- The ISO form of a day. -/
def display (d : Date) : String :=
  paddedNat 4 d.year ++ "-" ++ paddedNat 2 d.month ++ "-" ++ paddedNat 2 d.day

/-- The numbers of a day, separated by commas. -/
def arguments (d : Date) : List String := [toString d.year, toString d.month, toString d.day]

end Date

namespace TimeOfDay

/-- The ISO form of a time; microseconds are shown if there are any. -/
def display (t : TimeOfDay) : String :=
  let clock := paddedNat 2 t.hour ++ ":" ++ paddedNat 2 t.minute ++ ":" ++ paddedNat 2 t.second
  if t.microsecond = 0 then clock else clock ++ "." ++ paddedNat 6 t.microsecond

/-- The numbers of a time; zero seconds and microseconds at the end are left out. -/
def arguments (t : TimeOfDay) : List String :=
  let clock := [toString t.hour, toString t.minute]
  if t.microsecond ≠ 0 then clock ++ [toString t.second, toString t.microsecond]
  else if t.second ≠ 0 then clock ++ [toString t.second]
  else clock

end TimeOfDay

namespace Value

/-- Texts in brackets, separated by commas. -/
def bracketed (opening closing : String) (items : List String) : String :=
  opening ++ ", ".intercalate items ++ closing

/-- A tuple: a single item is followed by a comma. -/
def tupleText : List String → String
  | [item] => "(" ++ item ++ ",)"
  | items => bracketed "(" ")" items

/-- The word of a truth value in source form. -/
def boolLiteral (b : Bool) : String := if b then "True" else "False"

mutual

/-- The source form of a value. -/
def literal : Value → String
  | .null => "None"
  | .bool b => boolLiteral b
  | .int n => toString n
  | .double d => d.text
  | .str s => Text.quote s
  | .bytes b => Text.quoteBytes b
  | .date d => bracketed "datetime.date(" ")" d.arguments
  | .datetime d t => bracketed "datetime.datetime(" ")" (d.arguments ++ t.arguments)
  | .tuple items => tupleText (literals items)
  | .list items => bracketed "[" "]" (literals items)
  | .set [] => "set()"
  | .set items => bracketed "\x7b" "\x7d" (literals items)
  | .map entries => bracketed "\x7b" "\x7d" (entryLiterals entries)
  | .member type name value => "<" ++ type ++ "." ++ name ++ ": " ++ literal value ++ ">"
  | .object type _ values =>
    bracketed (type.name ++ "(") ")" (fieldLiterals (type.fields.map (·.name)) values)

/-- The source forms of a list of values. -/
def literals : List Value → List String
  | [] => []
  | v :: rest => literal v :: literals rest

/-- The source forms of the entries of a mapping. -/
def entryLiterals : List (Value × Value) → List String
  | [] => []
  | (k, v) :: rest => (literal k ++ ": " ++ literal v) :: entryLiterals rest

/-- The source forms of named fields. -/
def fieldLiterals : List String → List Value → List String
  | name :: names, v :: rest => (name ++ "=" ++ literal v) :: fieldLiterals names rest
  | _, _ => []

end

/-- The most digits of an integer that can be written. -/
def digitLimit : Nat := 4300

mutual

/-- Whether a value can be written in source form: an integer of too many digits cannot, and
neither can what holds one. -/
def hasLiteral : Value → Bool
  | .int n => n.natAbs < tenTo digitLimit
  | .tuple items | .list items | .set items => haveLiterals items
  | .map entries => entriesHaveLiterals entries
  | .member _ _ value => hasLiteral value
  | .object _ _ values => haveLiterals values
  | _ => true

/-- Whether all values of a list can be written. -/
def haveLiterals : List Value → Bool
  | [] => true
  | v :: rest => hasLiteral v && haveLiterals rest

/-- Whether all keys and values of a mapping can be written. -/
def entriesHaveLiterals : List (Value × Value) → Bool
  | [] => true
  | (k, v) :: rest => hasLiteral k && hasLiteral v && entriesHaveLiterals rest

end

/-- The wording for an integer that cannot be written. -/
def digitLimitMessage : String :=
  "Exceeds the limit (" ++ toString digitLimit ++ " digits) for integer string conversion; " ++
    "use sys.set_int_max_str_digits() to increase the limit"

/-- The plain form of a value. -/
def display : Value → String
  | .str s => s
  | .date d => d.display
  | .datetime d t => d.display ++ " " ++ t.display
  | .member _ _ (.int n) => toString n
  | .member _ _ (.double d) => d.text
  | .member type name _ => type ++ "." ++ name
  | .object type _ values => " ".intercalate (fieldLiterals (type.fields.map (·.name)) values)
  | v => v.literal

/-- Whether the plain form of a value can be written. A member that is no number needs no more than
its name. -/
def hasDisplay : Value → Bool
  | .member _ _ (.int n) => hasLiteral (.int n)
  | .member _ _ _ => true
  | v => v.hasLiteral

/-- A word is displayed as itself. -/
@[simp] theorem display_str (s : String) : display (.str s) = s := rfl

end Value
end RepoManifest
