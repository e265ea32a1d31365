import RepoManifest.Validation.FieldError

/-!
# Membership in a registry

A registry accepts the words it lists, written as text or as members of enumerated types. It refuses
every other value with an error that lists its words in order.
-/

namespace RepoManifest

namespace Registry

/-- Whether a value is one of the registry's words. -/
def accepts (r : Registry) (value : Value) : Bool :=
  match value.text? with
  | some word => r.values.contains word
  | none => false

/-- The error of a value that is not a word of the registry. -/
def validate (r : Registry) (value : Value) : Option FieldError :=
  if r.accepts value then none else some (.notAllowed r.values)

/-- The words in alphabetical order. -/
def sorted (r : Registry) : List String :=
  r.values.mergeSort fun a b ↦ decide (a ≤ b)

/-- A registry accepts a value exactly if the value is one of its words. -/
theorem accepts_iff {r : Registry} {v : Value} :
    r.accepts v = true ↔ ∃ word ∈ r.values, v.text? = some word := by
  unfold accepts
  cases v.text? <;> simp

/-- A registry accepts each of its words. -/
theorem accepts_of_mem {r : Registry} {word : String} (h : word ∈ r.values) :
    r.accepts (.str word) = true := by
  simp [accepts, Value.text?, h]

/-- Validation and membership agree. -/
theorem validate_eq_none_iff (r : Registry) (value : Value) :
    r.validate value = none ↔ r.accepts value = true := by
  unfold validate; split <;> simp_all

end Registry

/-- The permission of a word or member. -/
def Value.permission? (v : Value) : Option Permission := v.text?.bind Permission.ofText?

/-- The wording for a value that is no permission. -/
def Value.permissionMessage (v : Value) : String :=
  v.literal ++ " is not a valid " ++ permissions.name

/-- The distinct values of an enumerated type whose members may hold values of any kind. -/
structure ValueRegistry where
  name : String
  values : List Value
  deriving Repr, Inhabited

namespace EnumType

/-- The registry of an enumerated type with values of any kind; each value has to be a possible
key, and each member needs a name of its own. -/
def valueRegistry (type : EnumType Value) : Except Misuse ValueRegistry :=
  let names := type.members.map (·.1)
  if names ≠ distinctBy (· == ·) names then .error .wrongKind
  else
    let values := distinctBy Value.equal (type.members.map (·.2))
    if values.all Value.hashable then .ok ⟨type.name, values⟩ else .error .wrongKind

end EnumType

namespace ValueRegistry

/-- The error of a value that is not a word of the registry. The error can be worded only if all
values of the registry are words. -/
def validate (r : ValueRegistry) (value : Value) : Except Misuse (Option FieldError) :=
  let found := match value.text? with
    | some word => r.values.any fun v ↦ v.equal (.str word)
    | none => false
  if found then .ok none
  else match r.values.mapM Value.text? with
    | some words => .ok (some (.notAllowed words))
    | none => .error .wrongKind

end ValueRegistry
end RepoManifest
