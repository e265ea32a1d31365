import RepoManifest.Validation.FieldError
import RepoManifest.Validation.FieldPath

/-!
# Validators

A `Validator` accumulates the violations of one object so that they are reported together. Each
operation adds at the end; nothing is ever removed.
-/

namespace RepoManifest

/-- An object's name and the violations recorded so far, in order. -/
structure Validator where
  name : String
  violations : List Violation := []
  deriving Repr, Inhabited

namespace Validator

/-- The number of violations recorded. -/
def size (v : Validator) : Nat := v.violations.length

/-- Record an error at a path. -/
def record (v : Validator) (error : FieldError) (value : Value) (path : FieldPath) : Validator :=
  { v with violations := v.violations ++ [⟨.str path.join, value, error⟩] }

/-- Record an error, if there is one, at a path of unchecked segments. -/
def append (v : Validator) (error : Option FieldError) (value : Value) (path : List Value) :
    Except Misuse Validator :=
  match error with
  | none => .ok v
  | some e => (FieldPath.joinValues path).map fun field ↦
      { v with violations := v.violations ++ [⟨field, value, e⟩] }

/-- Record that a field is missing. -/
def required (v : Validator) (path : List Value) : Except Misuse Validator :=
  v.append (some .empty) .null path

/-- Record that a value is malformed. -/
def invalid (v : Validator) (value : Value) (path : List Value) : Except Misuse Validator :=
  v.append (some (.ofKind .invalid)) value path

/-- The invalid object, if anything was recorded. Whether its message can be written is another
question. -/
def error? (v : Validator) : Option InvalidObject :=
  if v.violations.isEmpty then none else some ⟨v.name, v.violations⟩

/-- Fail if anything was recorded. -/
def check (v : Validator) : Except InvalidObject Unit :=
  match v.error? with
  | some e => .error e
  | none => .ok ()

/-- The error texts by field; nothing is recorded under any field at first. -/
def byField (v : Validator) : Except Misuse (List (Value × Value)) :=
  match v.error? with
  | some e => e.byField
  | none => .ok []

/-- Recording adds one violation at the end. -/
@[simp] theorem violations_record (v : Validator) (e : FieldError) (value : Value)
    (path : FieldPath) :
    (v.record e value path).violations = v.violations ++ [⟨.str path.join, value, e⟩] := rfl

/-- On names and integers, appending is recording. -/
theorem append_toValue (v : Validator) (e : FieldError) (value : Value) (path : FieldPath) :
    v.append (some e) value (path.map Segment.toValue) = .ok (v.record e value path) := by
  simp [append, FieldPath.joinValues_toValue, Except.map, record]

/-- There is no error exactly while nothing is recorded. -/
theorem error?_eq_none_iff (v : Validator) : v.error? = none ↔ v.violations = [] := by
  unfold error?; split <;> simp_all [List.isEmpty_iff]

end Validator
end RepoManifest
