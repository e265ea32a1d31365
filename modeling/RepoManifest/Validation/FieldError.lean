import RepoManifest.Value.Equality
import RepoManifest.Value.Misuse
import RepoManifest.Value.Text

/-!
# Field errors and violations

A `FieldError` says what is wrong with a value, a `Violation` ties it to a field and to the value
found there, and an `InvalidObject` is a named object with all its violations.
-/

namespace RepoManifest

/-- What is wrong with the value of a field. -/
inductive FieldError where
  | general (message : String)
  | required (message : String)
  | invalid (message : String)
  | notAllowed (allowed : List String)
  deriving DecidableEq, Repr, Inhabited

/-- The kinds of field error. -/
inductive FieldErrorKind where
  | general | required | invalid | notAllowed
  deriving DecidableEq, Repr, Inhabited

namespace FieldErrorKind

/-- Every kind, the general one first. -/
def all : List FieldErrorKind := [general, required, invalid, notAllowed]

/-- The wording used when an error has none of its own. -/
def defaultMessage : FieldErrorKind → String
  | general | invalid => "field is invalid"
  | required => "field is required"
  | notAllowed => "field value isn't among the allowed enum values"

end FieldErrorKind

namespace FieldError

/-- The wording to use for an optional one: a missing or empty wording is replaced. -/
def wording (kind : FieldErrorKind) (message : Option String) : String :=
  match message with
  | some m => if m.isEmpty then kind.defaultMessage else m
  | none => kind.defaultMessage

/-- An error of a kind, with its own wording if it has any. For a value that is not allowed, the
characters of the wording are the allowed values. -/
def ofKind (kind : FieldErrorKind) (message : Option String := none) : FieldError :=
  match kind with
  | .general => .general (wording kind message)
  | .required => .required (wording kind message)
  | .invalid => .invalid (wording kind message)
  | .notAllowed => .notAllowed ((message.getD "").toList.map Char.toString)

/-- The error of a required field that is empty. -/
def empty : FieldError := ofKind .required

/-- The kind of an error. -/
def kind : FieldError → FieldErrorKind
  | .general _ => .general
  | .required _ => .required
  | .invalid _ => .invalid
  | .notAllowed _ => .notAllowed

/-- Whether an error is of a kind; every error is of the general kind. -/
def isKind (e : FieldError) (k : FieldErrorKind) : Bool := k == .general || k == e.kind

/-- The wording of an error; allowed values are listed in order if there are any. -/
def message : FieldError → String
  | .general m | .required m | .invalid m => m
  | .notAllowed [] => FieldErrorKind.notAllowed.defaultMessage
  | .notAllowed allowed =>
    FieldErrorKind.notAllowed.defaultMessage ++ " (" ++ ", ".intercalate allowed ++ ")"

/-- The allowed values of an error that lists them. -/
def allowed : FieldError → List String
  | .notAllowed values => values
  | _ => []

end FieldError

/-- An error at a field, with the value found there. -/
structure Violation where
  field : Value
  value : Value
  error : FieldError
  deriving Repr, Inhabited

namespace Violation

/-- One line: the field, the error, and the value unless the error is that it is missing. -/
def line (v : Violation) : String :=
  let line := v.field.display ++ ": " ++ v.error.message
  match v.error with
  | .required _ => line
  | _ => line ++ " (got " ++ v.value.literal ++ ")"

/-- Whether the line of a violation can be written: the field, and the value where it is shown. -/
def isWritable (v : Violation) : Bool :=
  v.field.hasDisplay && match v.error with
    | .required _ => true
    | _ => v.value.hasLiteral

/-- The line of a violation that can be written. -/
def message (v : Violation) : Except Misuse String :=
  if v.isWritable then .ok v.line else .error .tooManyDigits

end Violation

/-- A named object with its violations. -/
structure InvalidObject where
  name : String
  violations : List Violation
  deriving Repr, Inhabited

namespace InvalidObject

/-- One line per violation. -/
def errors (e : InvalidObject) : List String := e.violations.map (·.line)

/-- A heading and the indented messages of the violations, if all of these have one. -/
def message (e : InvalidObject) : Except Misuse String := do
  let messages ← e.violations.mapM Violation.message
  return e.name ++ " is invalid:\n" ++ "\n".intercalate (messages.map ("  - " ++ ·))

/-- Add the text of a violation to the text of its field. -/
def joinText (table : List (Value × Value)) (v : Violation) :
    Except Misuse (List (Value × Value)) :=
  if v.field.hashable then
    let text := match Value.lookup? table v.field with
      | some earlier => earlier.display ++ "; " ++ v.error.message
      | none => v.error.message
    .ok (Value.insert table v.field (.str text))
  else .error .wrongKind

/-- The error texts by field, in order of first occurrence; several of one field are joined. -/
def byField (e : InvalidObject) : Except Misuse (List (Value × Value)) :=
  e.violations.foldlM joinText []

/-- Whether some violation is of a kind. -/
def hasKind (e : InvalidObject) (k : FieldErrorKind) : Bool :=
  e.violations.any (·.error.isKind k)

end InvalidObject
end RepoManifest
