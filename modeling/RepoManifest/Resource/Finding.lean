import RepoManifest.Validation.Membership
import RepoManifest.Validation.Validator
import RepoManifest.Value.Basic

/-!
# Findings of a tree of objects

An object declares which of its fields must not be empty and which are restricted to a registry.
The findings of a tree of objects are, object by object from the outside in: its empty required
fields, then its values outside their registry, then the findings of the objects in its fields and
in its list fields. A validator walks through a tree and records them as it meets them.
-/

namespace RepoManifest

/-- An error at a path, with the value found there. -/
structure Finding where
  path : FieldPath
  value : Value
  error : FieldError
  deriving Repr, Inhabited

namespace Value

/-- Whether a value leaves a required field empty. -/
def leavesEmpty : Value → Bool
  | .null => true
  | .str s => s.isEmpty
  | .member _ _ (.str s) => s.isEmpty
  | .bytes b => b.isEmpty
  | .list items => items.isEmpty
  | .map entries => entries.isEmpty
  | _ => false

/-- The findings of the required fields of one object. -/
def requiredFindings (path : FieldPath) (fields : List (FieldDecl × Value)) : List Finding :=
  fields.filterMap fun (f, v) ↦
    if f.required && v.leavesEmpty then some ⟨path ++ [.name f.name], .null, .empty⟩ else none

/-- The finding of a field that is restricted to a registry. An unset field is not checked. -/
def registryFinding? (path : FieldPath) (f : FieldDecl) (v : Value) : Option Finding :=
  match f.registry, v with
  | none, _ => none
  | some _, .null => none
  | some r, v => (r.validate v).map fun error ↦ ⟨path ++ [.name f.name], v, error⟩

/-- The findings of the restricted fields of one object. -/
def registryFindings (path : FieldPath) (fields : List (FieldDecl × Value)) : List Finding :=
  fields.filterMap fun (f, v) ↦ registryFinding? path f v

mutual

/-- The findings of a value found at a path; only objects have any. -/
def findings (path : FieldPath) : Value → List Finding
  | .object type _ values =>
    requiredFindings path (type.fields.zip values) ++
      registryFindings path (type.fields.zip values) ++
      fieldFindings path type.fields values
  | _ => []

/-- The findings of the objects in fields and in list fields. -/
def fieldFindings (path : FieldPath) : List FieldDecl → List Value → List Finding
  | f :: fields, .list items :: values =>
    itemFindings (path ++ [.name f.name]) 0 items ++ fieldFindings path fields values
  | f :: fields, v :: values =>
    findings (path ++ [.name f.name]) v ++ fieldFindings path fields values
  | _, _ => []

/-- The findings of the objects in a list, the first one at position `i`. -/
def itemFindings (path : FieldPath) (i : Nat) : List Value → List Finding
  | [] => []
  | v :: rest => findings (path ++ [.index i]) v ++ itemFindings path (i + 1) rest

end

end Value

namespace Validator

/-- Record findings. -/
def recordAll (v : Validator) (findings : List Finding) : Validator :=
  findings.foldl (fun v f ↦ v.record f.error f.value f.path) v

/-- Record a required field if it is left empty. -/
def appendIfEmpty (root : List Value) (v : Validator) (field : FieldDecl × Value) :
    Except Misuse Validator :=
  if field.1.required && field.2.leavesEmpty then v.required (root ++ [.str field.1.name])
  else .ok v

/-- Record a restricted field if it is set to a value outside its registry. -/
def appendIfRefused (root : List Value) (v : Validator) (field : FieldDecl × Value) :
    Except Misuse Validator :=
  match field.1.registry, field.2 with
  | none, _ => .ok v
  | some _, .null => .ok v
  | some r, value => v.append (r.validate value) value (root ++ [.str field.1.name])

mutual

/-- Walk through an object and the objects inside it, and record what is wrong with each. Paths
start with unchecked segments. -/
def appendFindings (v : Validator) (root : List Value) : Value → Except Misuse Validator
  | .object type _ values => do
    let v ← (type.fields.zip values).foldlM (appendIfEmpty root) v
    let v ← (type.fields.zip values).foldlM (appendIfRefused root) v
    v.appendInFields root type.fields values
  | _ => .ok v

/-- Walk through the objects in fields and in list fields. -/
def appendInFields (v : Validator) (root : List Value) :
    List FieldDecl → List Value → Except Misuse Validator
  | f :: fields, .list items :: values => do
    let v ← v.appendInItems (root ++ [.str f.name]) 0 items
    v.appendInFields root fields values
  | f :: fields, value :: values => do
    let v ← v.appendFindings (root ++ [.str f.name]) value
    v.appendInFields root fields values
  | _, _ => .ok v

/-- Walk through the objects in a list, the first one at position `i`. -/
def appendInItems (v : Validator) (root : List Value) (i : Nat) :
    List Value → Except Misuse Validator
  | [] => .ok v
  | value :: rest => do
    let v ← v.appendFindings (root ++ [.int i]) value
    v.appendInItems root (i + 1) rest

end

/-- Recording findings adds one violation per finding, in order. -/
theorem violations_recordAll (v : Validator) (found : List Finding) :
    (v.recordAll found).violations =
      v.violations ++ found.map fun f ↦ ⟨.str f.path.join, f.value, f.error⟩ := by
  unfold recordAll
  induction found generalizing v with
  | nil => simp
  | cons f rest ih => rw [List.foldl_cons, ih]; simp

end Validator

/-- An object without findings is valid; otherwise it is invalid with all of them. -/
def Value.checkObject (name : String) (object : Value) : Except InvalidObject Unit :=
  (({ name := name } : Validator).recordAll (object.findings [])).check

end RepoManifest
